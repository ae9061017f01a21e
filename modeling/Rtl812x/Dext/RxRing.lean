import Rtl812x.Dext.Rx

/-!
# What the receive functions keep

Three facts about the receive ring, and that every function of the receive side keeps them:

* `RxPlaced` — **every packet of the pool is at exactly one place**: a slot, one of the two FIFOs,
  the pool, or with the framework;
* `RxAddr` — a descriptor whose slot holds a packet carries the packet's device address;
* `NoStale` — a descriptor that belongs to the chip has a packet in its slot.

`rxRefillLoop_complete` says when a refill reaches a slot: the packets it needs can be obtained.
-/

namespace Rtl812x.Dext

open Slots

variable {iova : ℕ → ℕ} {outcome : ℕ → Option ℕ} {s s' : RxSide} {i p : ℕ} {is : List ℕ}

/-! ### The properties -/

/-- The packets of the FIFOs are `free` and `done`, and no packet is anywhere twice. -/
structure RxPlacedAt (s : RxSide) (free done : List ℕ) : Prop where
  free_eq : Holds s.rxFreeFifo free
  done_eq : Holds s.rxDoneFifo done
  perm : (s.ringPkts ++ (free ++ (done ++ (s.rxPool ++ s.framework)))).Perm
    (List.range kRxPoolPackets)

def RxPlaced (s : RxSide) : Prop := ∃ free done, RxPlacedAt s free done

/-- Descriptors carry the address of their slot's packet. -/
def RxAddr (iova : ℕ → ℕ) (s : RxSide) : Prop :=
  ∀ i p, s.rxPkt i = some p → (s.rxRing i).addr = iova p

/-- A descriptor of the chip has a packet in its slot. -/
def NoStale (s : RxSide) : Prop :=
  ∀ i < kNumRxDesc, (s.rxRing i).own = true → s.rxPkt i ≠ none

/-- What every function of the receive side keeps in any state. -/
structure RxGood (iova : ℕ → ℕ) (s : RxSide) : Prop where
  placed : RxPlaced s
  addr : RxAddr iova s

theorem RxGood.init (iova : ℕ → ℕ) : RxGood iova RxSide.init := by
  refine ⟨⟨[], [], holds_empty, holds_empty, ?_⟩, ?_⟩
  · have hring : RxSide.init.ringPkts = [] := held_eq_nil fun _ _ => rfl
    -- one equation for each place: the list of all packets is too long to be unfolded
    have hpool : RxSide.init.rxPool = List.range kRxPoolPackets := by rw [RxSide.init]
    have hframework : RxSide.init.framework = [] := by rw [RxSide.init]
    rw [hring, hpool, hframework, List.append_nil, List.nil_append, List.nil_append, List.nil_append]
  · intro i p h
    cases h

/-- Only the slots, the descriptors, the FIFOs, the pool and the framework's packets matter. -/
theorem RxGood.congr (h : RxGood iova s) (hpkt : s'.rxPkt = s.rxPkt) (hring : s'.rxRing = s.rxRing)
    (hfree : s'.rxFreeFifo = s.rxFreeFifo) (hdone : s'.rxDoneFifo = s.rxDoneFifo)
    (hpool : s'.rxPool = s.rxPool) (hfw : s'.framework = s.framework) : RxGood iova s' := by
  obtain ⟨⟨free, done, hplaced⟩, haddr⟩ := h
  refine ⟨⟨free, done, ?_, ?_, ?_⟩, ?_⟩
  · rw [hfree]
    exact hplaced.free_eq
  · rw [hdone]
    exact hplaced.done_eq
  · rw [RxSide.ringPkts, hpkt, hpool, hfw]
    exact hplaced.perm
  · intro i p hp
    rw [hpkt] at hp
    rw [hring]
    exact haddr i p hp

theorem kRxPoolPackets_lt_kFifoMask : kRxPoolPackets < kFifoMask := by decide

/-! ### Refill -/

/-- A packet was taken from its place and not yet put into a slot. -/
def RxInHand (p : ℕ) (s : RxSide) : Prop :=
  ∃ free done, Holds s.rxFreeFifo free ∧ Holds s.rxDoneFifo done ∧
    (p :: (s.ringPkts ++ (free ++ (done ++ (s.rxPool ++ s.framework))))).Perm
      (List.range kRxPoolPackets)

/-- A packet of the pool and what is left of it. -/
theorem perm_eraseIdx {pool : List ℕ} {k p : ℕ} (hk : pool[k]? = some p) :
    (p :: pool.eraseIdx k).Perm pool := by
  obtain ⟨hlt, hget⟩ := List.getElem?_eq_some_iff.mp hk
  rw [← hget]
  exact List.getElem_cons_eraseIdx_perm hlt

/-- `allocatePacket` either fails or takes a packet out of the pool. -/
theorem rxAllocate_cases (outcome : ℕ → Option ℕ) (s : RxSide) :
    rxAllocate outcome s = (none, { s with allocCalls := s.allocCalls + 1 }) ∨
      ∃ k p, outcome s.allocCalls = some k ∧ s.rxPool[k]? = some p ∧
        rxAllocate outcome s
          = (some p, { s with allocCalls := s.allocCalls + 1, rxPool := s.rxPool.eraseIdx k }) := by
  unfold rxAllocate
  split
  · exact Or.inl rfl
  · rename_i k hk
    split
    · exact Or.inl rfl
    · rename_i p hp
      exact Or.inr ⟨k, p, hk, hp, rfl⟩

/-- `rxTake` moves only the free FIFO, the pool and the call count. -/
theorem rxTake_state (outcome : ℕ → Option ℕ) (s : RxSide) :
    ∃ fifo pool calls, (rxTake outcome s).2 =
      { s with rxFreeFifo := fifo, rxPool := pool, allocCalls := calls } := by
  simp only [rxTake]
  split
  · exact ⟨_, s.rxPool, s.allocCalls, rfl⟩
  · rcases rxAllocate_cases outcome { s with rxFreeFifo := (fifoPop s.rxFreeFifo).2 } with h | h
    · rw [h]
      exact ⟨_, s.rxPool, _, rfl⟩
    · obtain ⟨k, p, -, -, h⟩ := h
      rw [h]
      exact ⟨_, _, _, rfl⟩

theorem rxTake_frame (outcome : ℕ → Option ℕ) (s : RxSide) :
    (rxTake outcome s).2.rxPkt = s.rxPkt ∧ (rxTake outcome s).2.rxRing = s.rxRing ∧
      (rxTake outcome s).2.rxNextDescIndex = s.rxNextDescIndex := by
  obtain ⟨fifo, pool, calls, h⟩ := rxTake_state outcome s
  rw [h]
  exact ⟨rfl, rfl, rfl⟩

/-- **A packet for a slot** comes from exactly one place. -/
theorem rxTake_placed (outcome : ℕ → Option ℕ) (h : RxPlaced s) :
    ((rxTake outcome s).1 = none ∧ RxPlaced (rxTake outcome s).2) ∨
      ∃ p, (rxTake outcome s).1 = some p ∧ RxInHand p (rxTake outcome s).2 := by
  obtain ⟨free, done, hfree, hdone, hperm⟩ := h
  simp only [rxTake]
  cases free with
  | cons p free =>
      obtain ⟨hsome, hrest⟩ := fifoPop_cons hfree
      rw [hsome]
      exact Or.inr ⟨p, rfl, free, done, hrest, hdone, List.perm_middle.symm.trans hperm⟩
  | nil =>
      have hnone := fifoPop_nil hfree
      rw [hnone]
      rcases rxAllocate_cases outcome s with h | ⟨k, p, -, hk, h⟩
      · rw [h]
        exact Or.inl ⟨rfl, [], done, hfree, hdone, hperm⟩
      · rw [h]
        have hpool := perm_eraseIdx hk
        refine Or.inr ⟨p, rfl, [], done, hfree, hdone, ?_⟩
        refine List.Perm.trans ?_ hperm
        rw [List.perm_iff_count] at hpool ⊢
        intro a
        have hcount := hpool a
        simp only [RxSide.ringPkts, List.count_cons, List.count_append] at hcount ⊢
        omega

/-- Arming a slot puts the packet in hand into it. -/
theorem rxArm_placed (hi : i < kNumRxDesc) (hempty : s.rxPkt i = none) (h : RxInHand p s) :
    RxPlaced (rxArm iova i p s) := by
  obtain ⟨free, done, hfree, hdone, hperm⟩ := h
  refine ⟨free, done, hfree, hdone, ?_⟩
  exact ((held_put hi hempty p).append_right _).trans hperm

theorem rxArm_addr (h : RxAddr iova s) (i p : ℕ) : RxAddr iova (rxArm iova i p s) := by
  intro j q hj
  simp only [rxArm] at hj ⊢
  by_cases hji : j = i
  · subst hji
    rw [Function.update_self, Option.some.injEq] at hj
    rw [Function.update_self, ← hj]
  · rw [Function.update_of_ne hji] at hj ⊢
    exact h j q hj

theorem rxArm_noStale (h : NoStale s) (i p : ℕ) : NoStale (rxArm iova i p s) := by
  intro j hj hown
  simp only [rxArm] at hown ⊢
  by_cases hji : j = i
  · subst hji
    simp
  · rw [Function.update_of_ne hji] at hown ⊢
    exact h j hj hown

/-- One turn of the refill loop on an empty slot. -/
theorem rxRefillLoop_cons_none (hempty : s.rxPkt i = none) :
    rxRefillLoop iova outcome (i :: is) s
      = match (rxTake outcome s).1 with
        | none => (false, (rxTake outcome s).2)
        | some p => rxRefillLoop iova outcome is (rxArm iova i p (rxTake outcome s).2) := by
  rw [rxRefillLoop, hempty]
  simp only
  rcases h : rxTake outcome s with ⟨_ | p, s'⟩ <;> rfl

theorem rxRefillLoop_cons_some (hfull : s.rxPkt i = some p) :
    rxRefillLoop iova outcome (i :: is) s = rxRefillLoop iova outcome is s := by
  rw [rxRefillLoop, hfull]

/-- **A rule for refills**: what arming an empty slot and running out of packets keep, a refill
keeps. -/
theorem rxRefillLoop_induction {P : RxSide → Prop}
    (hstop : ∀ s, P s → (rxTake outcome s).1 = none → P (rxTake outcome s).2)
    (harm : ∀ s i p, i < kNumRxDesc → P s → s.rxPkt i = none → (rxTake outcome s).1 = some p →
      P (rxArm iova i p (rxTake outcome s).2))
    (his : ∀ i ∈ is, i < kNumRxDesc) (hs : P s) : P (rxRefillLoop iova outcome is s).2 := by
  induction is generalizing s with
  | nil => exact hs
  | cons i is ih =>
      have his' : ∀ j ∈ is, j < kNumRxDesc := fun j hj => his j (List.mem_cons_of_mem _ hj)
      cases hpkt : s.rxPkt i with
      | some p =>
          rw [rxRefillLoop_cons_some hpkt]
          exact ih his' hs
      | none =>
          rw [rxRefillLoop_cons_none hpkt]
          cases htake : (rxTake outcome s).1 with
          | none => exact hstop s hs htake
          | some p =>
              exact ih his' (harm s i p (his i (List.mem_cons_self ..)) hs hpkt htake)

/-- A refill keeps every packet at one place and every address right. -/
theorem RxGood.rxRefillLoop (h : RxGood iova s) (his : ∀ i ∈ is, i < kNumRxDesc) :
    RxGood iova (rxRefillLoop iova outcome is s).2 := by
  refine rxRefillLoop_induction ?_ ?_ his h
  · intro s hs hnone
    obtain ⟨hpkt, hring, -⟩ := rxTake_frame outcome s
    rcases rxTake_placed outcome hs.placed with ⟨-, hplaced⟩ | ⟨p, hsome, -⟩
    · refine ⟨hplaced, ?_⟩
      intro i p hp
      rw [hpkt] at hp
      rw [hring]
      exact hs.addr i p hp
    · rw [hnone] at hsome
      cases hsome
  · intro s i p hi hs hempty htake
    obtain ⟨hpkt, hring, -⟩ := rxTake_frame outcome s
    rcases rxTake_placed outcome hs.placed with ⟨hnone, -⟩ | ⟨p', hsome, hhand⟩
    · rw [htake] at hnone
      cases hnone
    · rw [htake, Option.some.injEq] at hsome
      subst hsome
      refine ⟨rxArm_placed hi (by rw [hpkt]; exact hempty) hhand, rxArm_addr ?_ i p⟩
      intro j q hj
      rw [hpkt] at hj
      rw [hring]
      exact hs.addr j q hj

theorem NoStale.congr (h : NoStale s) (hpkt : s'.rxPkt = s.rxPkt) (hring : s'.rxRing = s.rxRing) :
    NoStale s' := by
  intro i hi hown
  rw [hring] at hown
  rw [hpkt]
  exact h i hi hown

theorem NoStale.rxRefillLoop (h : NoStale s) (his : ∀ i ∈ is, i < kNumRxDesc) :
    NoStale (rxRefillLoop iova outcome is s).2 := by
  refine rxRefillLoop_induction ?_ ?_ his h
  · intro s hs _
    obtain ⟨hpkt, hring, -⟩ := rxTake_frame outcome s
    exact hs.congr hpkt hring
  · intro s i p _ hs _ _
    obtain ⟨hpkt, hring, -⟩ := rxTake_frame outcome s
    exact rxArm_noStale (hs.congr hpkt hring) i p

/-! ### How far a refill gets -/

/-- The next `n` packets can be obtained: those not in the free FIFO by allocations that
succeed. -/
def Obtainable (outcome : ℕ → Option ℕ) (s : RxSide) (n : ℕ) : Prop :=
  ∀ j < n - s.rxFreeFifo.depth, ∃ k < s.rxPool.length - j, outcome (s.allocCalls + j) = some k

/-- Taking one of the obtainable packets leaves the others obtainable. -/
theorem rxTake_of_obtainable {n : ℕ} (h : RxPlaced s) (hobt : Obtainable outcome s (n + 1)) :
    ∃ p, (rxTake outcome s).1 = some p ∧ Obtainable outcome (rxTake outcome s).2 n := by
  obtain ⟨free, done, hfree, -, -⟩ := h
  unfold Obtainable at hobt
  rw [hfree.depth_eq] at hobt
  simp only [rxTake]
  cases free with
  | cons p free =>
      obtain ⟨hsome, hrest⟩ := fifoPop_cons hfree
      rw [hsome]
      refine ⟨p, rfl, ?_⟩
      unfold Obtainable
      rw [hrest.depth_eq]
      intro j hj
      exact hobt j (by rw [List.length_cons]; omega)
  | nil =>
      have hnone := fifoPop_nil hfree
      rw [hnone]
      obtain ⟨k, hk, hout⟩ := hobt 0 (by simp)
      have hget : s.rxPool[k]? = some (s.rxPool[k]) := List.getElem?_eq_getElem (by omega)
      have halloc : rxAllocate outcome s = (some s.rxPool[k],
          { s with allocCalls := s.allocCalls + 1, rxPool := s.rxPool.eraseIdx k }) := by
        simp only [rxAllocate]
        rw [Nat.add_zero] at hout
        rw [hout]
        simp only [hget]
      refine ⟨s.rxPool[k], by rw [halloc], ?_⟩
      rw [halloc]
      intro j hj
      have hdepth : s.rxFreeFifo.depth = 0 := hfree.depth_eq
      simp only [hdepth] at hj
      obtain ⟨k', hk', hout'⟩ := hobt (j + 1) (by simpa using hj)
      refine ⟨k', ?_, ?_⟩
      · show k' < (s.rxPool.eraseIdx k).length - j
        rw [List.length_eraseIdx_of_lt (by omega)]
        omega
      · show outcome (s.allocCalls + 1 + j) = some k'
        rw [Nat.add_assoc, Nat.add_comm 1 j]
        exact hout'

/-- A filled slot stays filled. -/
theorem rxRefillLoop_keeps_slot (his : ∀ j ∈ is, j < kNumRxDesc) (h : s.rxPkt i ≠ none) :
    (rxRefillLoop iova outcome is s).2.rxPkt i ≠ none := by
  refine rxRefillLoop_induction (P := fun s => s.rxPkt i ≠ none) ?_ ?_ his h
  · intro s hs _
    rw [(rxTake_frame outcome s).1]
    exact hs
  · intro s j p _ hs _ _
    simp only [rxArm]
    by_cases hij : i = j
    · subst hij
      simp
    · rw [Function.update_of_ne hij, (rxTake_frame outcome s).1]
      exact hs

/-- **A refill fills the slots `is`** when as many packets can be obtained as are missing. -/
theorem rxRefillLoop_complete (hnodup : is.Nodup) (his : ∀ j ∈ is, j < kNumRxDesc)
    (h : RxGood iova s) (hobt : Obtainable outcome s (is.countP fun j => s.rxPkt j = none)) :
    (rxRefillLoop iova outcome is s).1 = true ∧
      ∀ i ∈ is, (rxRefillLoop iova outcome is s).2.rxPkt i ≠ none := by
  induction is generalizing s with
  | nil => exact ⟨rfl, by simp⟩
  | cons i is ih =>
      rw [List.nodup_cons] at hnodup
      have his' : ∀ j ∈ is, j < kNumRxDesc := fun j hj => his j (List.mem_cons_of_mem _ hj)
      cases hpkt : s.rxPkt i with
      | some p =>
          rw [List.countP_cons_of_neg (by simp [hpkt])] at hobt
          rw [rxRefillLoop_cons_some hpkt]
          obtain ⟨htrue, hfilled⟩ := ih hnodup.2 his' h hobt
          refine ⟨htrue, ?_⟩
          intro j hj
          rcases List.mem_cons.mp hj with rfl | hj
          · exact rxRefillLoop_keeps_slot his' (by simp [hpkt])
          · exact hfilled j hj
      | none =>
          rw [List.countP_cons_of_pos (by simp [hpkt])] at hobt
          obtain ⟨p, htake, hobt'⟩ := rxTake_of_obtainable h.placed hobt
          have hgood : RxGood iova (rxArm iova i p (rxTake outcome s).2) := by
            have hone : RxGood iova (rxRefillLoop iova outcome [i] s).2 :=
              h.rxRefillLoop (by simpa using his i (List.mem_cons_self ..))
            rwa [rxRefillLoop_cons_none hpkt, htake] at hone
          have hcount : (is.countP fun j =>
              (rxArm iova i p (rxTake outcome s).2).rxPkt j = none)
                = is.countP fun j => s.rxPkt j = none := by
            apply List.countP_congr
            intro j hj
            have hne : j ≠ i := by
              rintro rfl
              exact hnodup.1 hj
            simp only [rxArm, Function.update_of_ne hne, (rxTake_frame outcome s).1]
          have hobt'' : Obtainable outcome (rxArm iova i p (rxTake outcome s).2)
              (is.countP fun j => (rxArm iova i p (rxTake outcome s).2).rxPkt j = none) := by
            rw [hcount]
            exact hobt'
          obtain ⟨htrue, hfilled⟩ := ih hnodup.2 his' hgood hobt''
          rw [rxRefillLoop_cons_none hpkt, htake]
          refine ⟨htrue, ?_⟩
          intro j hj
          rcases List.mem_cons.mp hj with rfl | hj
          · exact rxRefillLoop_keeps_slot his' (by simp [rxArm])
          · exact hfilled j hj

/-- A refill that fills the first slots goes on with the others. -/
theorem rxRefillLoop_append (js : List ℕ) (h : (rxRefillLoop iova outcome is s).1 = true) :
    rxRefillLoop iova outcome (is ++ js) s
      = rxRefillLoop iova outcome js (rxRefillLoop iova outcome is s).2 := by
  induction is generalizing s with
  | nil => rfl
  | cons i is ih =>
      cases hpkt : s.rxPkt i with
      | some p =>
          rw [rxRefillLoop_cons_some hpkt] at h
          rw [List.cons_append, rxRefillLoop_cons_some hpkt, rxRefillLoop_cons_some hpkt]
          exact ih h
      | none =>
          rw [rxRefillLoop_cons_none hpkt] at h
          rw [List.cons_append, rxRefillLoop_cons_none hpkt, rxRefillLoop_cons_none hpkt]
          cases htake : (rxTake outcome s).1 with
          | none => simp [htake] at h
          | some p =>
              simp only [htake] at h
              exact ih h

/-! ### The whole ring -/

theorem mem_range_lt : ∀ i ∈ List.range kNumRxDesc, i < kNumRxDesc := fun _ => List.mem_range.mp

theorem RxGood.rxRingRefill (h : RxGood iova s) : RxGood iova (rxRingRefill iova outcome s).2 :=
  h.rxRefillLoop mem_range_lt

theorem NoStale.rxRingRefill (h : NoStale s) : NoStale (rxRingRefill iova outcome s).2 :=
  h.rxRefillLoop mem_range_lt

theorem rxRingRefill_next (iova : ℕ → ℕ) (outcome : ℕ → Option ℕ) (s : RxSide) :
    (rxRingRefill iova outcome s).2.rxNextDescIndex = s.rxNextDescIndex := by
  rw [Dext.rxRingRefill]
  refine rxRefillLoop_induction (P := fun s' => s'.rxNextDescIndex = s.rxNextDescIndex) ?_ ?_
    mem_range_lt rfl
  · intro r hr _
    rw [(rxTake_frame outcome r).2.2, hr]
  · intro r i p _ hr _ _
    exact (rxTake_frame outcome r).2.2.trans hr

/-- A stale descriptor after a refill was stale before. -/
theorem rxRingRefill_stale
    (hown : ((rxRingRefill iova outcome s).2.rxRing i).own = true)
    (hempty : (rxRingRefill iova outcome s).2.rxPkt i = none) :
    (s.rxRing i).own = true ∧ s.rxPkt i = none := by
  rw [Dext.rxRingRefill] at hown hempty
  revert hown hempty
  refine rxRefillLoop_induction (P := fun s' => (s'.rxRing i).own = true → s'.rxPkt i = none →
    (s.rxRing i).own = true ∧ s.rxPkt i = none) ?_ ?_ mem_range_lt fun h1 h2 => ⟨h1, h2⟩
  · intro r hr _
    obtain ⟨hpkt, hring, -⟩ := rxTake_frame outcome r
    rw [hpkt, hring]
    exact hr
  · intro r j p _ hr _ _
    obtain ⟨hpkt, hring, -⟩ := rxTake_frame outcome r
    simp only [rxArm]
    by_cases hij : i = j
    · subst hij
      simp
    · rw [Function.update_of_ne hij, Function.update_of_ne hij, hpkt, hring]
      exact hr

/-- A refill reaches slot `i` when the packets missing up to it can be obtained. -/
theorem rxRingRefill_reaches (hi : i < kNumRxDesc) (h : RxGood iova s)
    (hobt : Obtainable outcome s ((List.range (i + 1)).countP fun j => s.rxPkt j = none)) :
    (rxRingRefill iova outcome s).2.rxPkt i ≠ none := by
  have hsplit : List.range kNumRxDesc
      = List.range (i + 1) ++ (List.range (kNumRxDesc - (i + 1))).map (i + 1 + ·) := by
    rw [← List.range_add, Nat.add_sub_cancel' (Nat.succ_le_of_lt hi)]
  have hlow : ∀ j ∈ List.range (i + 1), j < kNumRxDesc := by
    intro j hj
    have := List.mem_range.mp hj
    omega
  have hhigh : ∀ j ∈ (List.range (kNumRxDesc - (i + 1))).map (i + 1 + ·), j < kNumRxDesc := by
    intro j hj
    obtain ⟨k, hk, rfl⟩ := List.mem_map.mp hj
    have := List.mem_range.mp hk
    omega
  obtain ⟨htrue, hfilled⟩ := rxRefillLoop_complete List.nodup_range hlow h hobt
  rw [Dext.rxRingRefill, hsplit, rxRefillLoop_append _ htrue]
  exact rxRefillLoop_keeps_slot hhigh (hfilled i (List.mem_range.mpr (Nat.lt_succ_self i)))

/-- **A refill leaves no stale descriptor** when it reaches every stale one. -/
theorem NoStale.of_obtainable (h : RxGood iova s)
    (hobt : ∀ i < kNumRxDesc, (s.rxRing i).own = true → s.rxPkt i = none →
      Obtainable outcome s ((List.range (i + 1)).countP fun j => s.rxPkt j = none)) :
    NoStale (Dext.rxRingRefill iova outcome s).2 := by
  intro i hi hown hempty
  obtain ⟨hown', hempty'⟩ := rxRingRefill_stale hown hempty
  exact rxRingRefill_reaches hi h (hobt i hi hown' hempty') hempty

/-! ### Re-arming -/

theorem RxGood.rxRearmSlots (h : RxGood iova s) : RxGood iova (rxRearmSlots s) := by
  obtain ⟨⟨free, done, hplaced⟩, haddr⟩ := h
  refine ⟨⟨free, done, hplaced.free_eq, hplaced.done_eq, hplaced.perm⟩, ?_⟩
  intro i p hp
  simp only [Dext.rxRearmSlots]
  split
  · exact haddr i p hp
  · exact haddr i p hp

theorem NoStale.rxRearmSlots (h : NoStale s) : NoStale (rxRearmSlots s) := by
  intro i hi hown
  simp only [Dext.rxRearmSlots] at hown ⊢
  split at hown
  · rename_i hfull
    exact hfull.2
  · exact h i hi hown

theorem RxGood.rxRingRearm (h : RxGood iova s) : RxGood iova (rxRingRearm iova outcome s) :=
  RxGood.rxRingRefill (h.rxRearmSlots.congr rfl rfl rfl rfl rfl rfl)

theorem NoStale.rxRingRearm (h : NoStale s) : NoStale (rxRingRearm iova outcome s) :=
  NoStale.rxRingRefill (h.rxRearmSlots.congr rfl rfl)

/-! ### Service -/

/-- A received packet is queued for the framework: the FIFO has room for the whole pool. -/
theorem rxComplete_placed (h : RxInHand p s) : RxPlaced (rxComplete p s) := by
  obtain ⟨free, done, hfree, hdone, hperm⟩ := h
  have hlen := hperm.length_eq
  have hfifo := kRxPoolPackets_lt_kFifoMask
  simp only [List.length_cons, List.length_append, List.length_range] at hlen
  obtain ⟨hok, hholds⟩ := fifoPush_holds hdone (by omega) p
  refine ⟨free, done ++ [p], hfree, hholds, ?_⟩
  simp only [rxComplete, hok, if_true]
  refine List.Perm.trans ?_ hperm
  rw [List.perm_iff_count]
  intro a
  simp only [RxSide.ringPkts, List.count_cons, List.count_append, List.count_nil]
  omega

theorem RxGood.rxDeliver (h : RxGood iova s) (hi : i < kNumRxDesc) (hp : s.rxPkt i = some p) :
    RxGood iova (rxDeliver i p s) := by
  obtain ⟨⟨free, done, hplaced⟩, haddr⟩ := h
  refine ⟨?_, ?_⟩
  · apply rxComplete_placed
    refine ⟨free, done, hplaced.free_eq, hplaced.done_eq, ?_⟩
    exact ((held_take hi hp).append_right _).symm.trans hplaced.perm
  · intro j q hj
    simp only [Dext.rxDeliver, rxComplete] at hj ⊢
    by_cases hji : j = i
    · rw [hji, Function.update_self] at hj
      cases hj
    · rw [Function.update_of_ne hji] at hj
      exact haddr j q hj

theorem RxGood.rxRecycle (h : RxGood iova s) (i : ℕ) : RxGood iova (rxRecycle i s) := by
  obtain ⟨⟨free, done, hplaced⟩, haddr⟩ := h
  refine ⟨⟨free, done, hplaced.free_eq, hplaced.done_eq, hplaced.perm⟩, ?_⟩
  intro j q hj
  simp only [Dext.rxRecycle]
  by_cases hji : j = i
  · subst hji
    rw [Function.update_self]
    exact haddr j q hj
  · rw [Function.update_of_ne hji]
    exact haddr j q hj

theorem RxGood.rxServiceOne (h : RxGood iova s) (hi : s.rxNextDescIndex < kNumRxDesc)
    (hp : s.rxPkt s.rxNextDescIndex = some p) : RxGood iova (rxServiceOne p s) := by
  unfold Dext.rxServiceOne
  split
  · exact (h.rxRecycle _).congr rfl rfl rfl rfl rfl rfl
  · exact (h.rxDeliver hi hp).congr rfl rfl rfl rfl rfl rfl

/-- A serviced descriptor is the chip's again with its packet, or it is empty and not the
chip's. -/
theorem NoStale.rxServiceOne (h : NoStale s) (hp : s.rxPkt s.rxNextDescIndex = some p)
    (hown : (s.rxRing s.rxNextDescIndex).own = false) : NoStale (rxServiceOne p s) := by
  unfold Dext.rxServiceOne
  split
  · intro i hi hown'
    simp only [rxAdvance, rxRecycle] at hown' ⊢
    by_cases hin : i = s.rxNextDescIndex
    · rw [hin, hp]
      simp
    · rw [Function.update_of_ne hin] at hown'
      exact h i hi hown'
  · intro i hi hown'
    simp only [rxAdvance, rxDeliver, rxComplete] at hown' ⊢
    by_cases hin : i = s.rxNextDescIndex
    · rw [hin, hown] at hown'
      cases hown'
    · rw [Function.update_of_ne hin]
      exact h i hi hown'

theorem rxServiceOne_next (p : ℕ) (s : RxSide) :
    (rxServiceOne p s).rxNextDescIndex = Circular.slot kNumRxDesc s.rxNextDescIndex 1 := by
  have hnext : (s.rxNextDescIndex + 1) &&& kRxDescMask
      = Circular.slot kNumRxDesc s.rxNextDescIndex 1 := and_kRxDescMask _
  unfold rxServiceOne
  split <;> exact hnext

theorem kNumRxDesc_pos : 0 < kNumRxDesc := by decide

/-- **A rule for the service loop**: what handling a completed descriptor with a packet keeps, the
loop keeps. -/
theorem rxServiceLoop_induction {P : RxSide → Prop}
    (hone : ∀ s p, P s → (s.rxRing s.rxNextDescIndex).own = false →
      s.rxPkt s.rxNextDescIndex = some p → P (rxServiceOne p s))
    {budget : ℕ} {delivered : Bool} (hs : P s) : P (rxServiceLoop budget delivered s).2 := by
  induction budget generalizing s delivered with
  | zero => exact hs
  | succ budget ih =>
      simp only [rxServiceLoop]
      split
      · exact hs
      · rename_i hown
        split
        · exact hs
        · rename_i p hp
          exact ih (hone s p hs (by simpa using hown) hp)

theorem RxGood.rxServiceLoop {budget : ℕ} {delivered : Bool} (h : RxGood iova s)
    (hi : s.rxNextDescIndex < kNumRxDesc) :
    RxGood iova (rxServiceLoop budget delivered s).2 ∧
      (rxServiceLoop budget delivered s).2.rxNextDescIndex < kNumRxDesc := by
  refine rxServiceLoop_induction (P := fun s => RxGood iova s ∧ s.rxNextDescIndex < kNumRxDesc)
    ?_ ⟨h, hi⟩
  intro s p hs _ hp
  refine ⟨hs.1.rxServiceOne hs.2 hp, ?_⟩
  rw [rxServiceOne_next]
  exact Circular.slot_lt kNumRxDesc_pos _ _

theorem NoStale.rxServiceLoop {budget : ℕ} {delivered : Bool} (h : NoStale s) :
    NoStale (rxServiceLoop budget delivered s).2 :=
  rxServiceLoop_induction (fun _ _ hs hown hp => hs.rxServiceOne hp hown) h

theorem RxGood.rxAnnounce (h : RxGood iova s) (delivered : Bool) :
    RxGood iova (rxAnnounce delivered s) := by
  unfold Dext.rxAnnounce
  split
  · exact h.congr rfl rfl rfl rfl rfl rfl
  · exact h

theorem NoStale.rxAnnounce (h : NoStale s) (delivered : Bool) :
    NoStale (rxAnnounce delivered s) := by
  unfold Dext.rxAnnounce
  split
  · exact h.congr rfl rfl
  · exact h

theorem RxGood.rxRingService (h : RxGood iova s) (hi : s.rxNextDescIndex < kNumRxDesc) :
    RxGood iova (rxRingService iova outcome s) :=
  (h.rxServiceLoop hi).1.rxRingRefill.rxAnnounce _

theorem NoStale.rxRingService (h : NoStale s) : NoStale (rxRingService iova outcome s) :=
  h.rxServiceLoop.rxRingRefill.rxAnnounce _

/-! ### Exchange with the framework, and disable -/

/-- Submitting packets the framework holds: the FIFO has room for the whole pool. -/
theorem RxGood.rxDequeueLoop {ps : List ℕ} (h : RxGood iova s) (hnodup : ps.Nodup)
    (hps : ∀ p ∈ ps, p ∈ s.framework) : RxGood iova (rxDequeueLoop ps s).2 := by
  induction ps generalizing s with
  | nil => exact h
  | cons p ps ih =>
      obtain ⟨⟨free, done, hfree, hdone, hperm⟩, haddr⟩ := h
      have hlen := hperm.length_eq
      have hfifo := kRxPoolPackets_lt_kFifoMask
      simp only [List.length_append, List.length_range] at hlen
      obtain ⟨hok, hholds⟩ := fifoPush_holds hfree (by omega) p
      have hfw := List.perm_cons_erase (hps p (List.mem_cons_self ..))
      rw [List.nodup_cons] at hnodup
      rw [Dext.rxDequeueLoop, if_pos hok]
      refine ih ⟨⟨free ++ [p], done, hholds, hdone, ?_⟩, haddr⟩ hnodup.2 ?_
      · refine List.Perm.trans ?_ hperm
        rw [List.perm_iff_count] at hfw ⊢
        intro a
        have hcount := hfw a
        simp only [RxSide.ringPkts, List.count_cons, List.count_append, List.count_nil] at hcount ⊢
        omega
      · intro q hq
        have hne : q ≠ p := by
          rintro rfl
          exact hnodup.1 hq
        exact (List.mem_erase_of_ne hne).mpr (hps q (List.mem_cons_of_mem _ hq))

theorem NoStale.rxDequeueLoop {ps : List ℕ} (h : NoStale s) : NoStale (rxDequeueLoop ps s).2 := by
  induction ps generalizing s with
  | nil => exact h
  | cons p ps ih =>
      rw [Dext.rxDequeueLoop]
      split
      · exact ih (h.congr rfl rfl)
      · exact h

theorem RxGood.rxEnqueueAction {n : ℕ} (h : RxGood iova s) :
    RxGood iova (rxEnqueueAction n s).2 := by
  induction n generalizing s with
  | zero => exact h
  | succ n ih =>
      obtain ⟨⟨free, done, hfree, hdone, hperm⟩, haddr⟩ := h
      simp only [Dext.rxEnqueueAction]
      cases done with
      | nil =>
          rw [fifoPop_nil hdone]
          exact ⟨⟨free, [], hfree, hdone, hperm⟩, haddr⟩
      | cons p done =>
          obtain ⟨hsome, hrest⟩ := fifoPop_cons hdone
          rw [hsome]
          refine ih ⟨⟨free, done, hfree, hrest, ?_⟩, haddr⟩
          refine List.Perm.trans ?_ hperm
          rw [List.perm_iff_count]
          intro a
          simp only [RxSide.ringPkts, List.count_cons, List.count_append]
          omega

theorem NoStale.rxEnqueueAction {n : ℕ} (h : NoStale s) : NoStale (rxEnqueueAction n s).2 := by
  induction n generalizing s with
  | zero => exact h
  | succ n ih =>
      simp only [Dext.rxEnqueueAction]
      split
      · exact h.congr rfl rfl
      · exact ih (h.congr rfl rfl)

/-- Dropping the ring's packets puts them back into the pool. -/
theorem RxGood.rxRingDrop (h : RxGood iova s) : RxGood iova (rxRingDrop s) := by
  obtain ⟨⟨free, done, hfree, hdone, hperm⟩, haddr⟩ := h
  have hnil : (Dext.rxRingDrop s).ringPkts = [] :=
    held_eq_nil fun i hi => by simp [Dext.rxRingDrop, hi]
  refine ⟨⟨free, done, hfree, hdone, ?_⟩, ?_⟩
  · rw [hnil]
    refine List.Perm.trans ?_ hperm
    rw [List.perm_iff_count]
    intro a
    simp only [Dext.rxRingDrop, List.count_append, List.nil_append]
    omega
  · intro i p hp
    simp only [Dext.rxRingDrop] at hp
    split at hp
    · cases hp
    · exact haddr i p hp

/-! ### The receive index -/

theorem rxRingRearm_next (iova : ℕ → ℕ) (outcome : ℕ → Option ℕ) (s : RxSide) :
    (rxRingRearm iova outcome s).rxNextDescIndex = 0 := by
  rw [rxRingRearm, rxRingRefill_next]

theorem rxDequeueLoop_next (ps : List ℕ) (s : RxSide) :
    (rxDequeueLoop ps s).2.rxNextDescIndex = s.rxNextDescIndex := by
  induction ps generalizing s with
  | nil => rfl
  | cons p ps ih =>
      rw [rxDequeueLoop]
      split
      · exact ih _
      · rfl

theorem rxEnqueueAction_next (n : ℕ) (s : RxSide) :
    (rxEnqueueAction n s).2.rxNextDescIndex = s.rxNextDescIndex := by
  induction n generalizing s with
  | zero => rfl
  | succ n ih =>
      simp only [rxEnqueueAction]
      split
      · rfl
      · exact ih _

theorem rxRingService_next_lt (iova : ℕ → ℕ) (outcome : ℕ → Option ℕ)
    (h : s.rxNextDescIndex < kNumRxDesc) :
    (rxRingService iova outcome s).rxNextDescIndex < kNumRxDesc := by
  have hloop : (rxServiceLoop kNumRxDesc false s).2.rxNextDescIndex < kNumRxDesc := by
    refine rxServiceLoop_induction (P := fun s => s.rxNextDescIndex < kNumRxDesc) ?_ h
    intro r p _ _ _
    rw [rxServiceOne_next]
    exact Circular.slot_lt kNumRxDesc_pos _ _
  have hann : ∀ (b : Bool) (r : RxSide), (rxAnnounce b r).rxNextDescIndex = r.rxNextDescIndex := by
    intro b r
    cases b <;> rfl
  rw [rxRingService, hann, rxRingRefill_next]
  exact hloop

end Rtl812x.Dext
