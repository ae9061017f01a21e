import Rtl812x.Dext.RxRing
import Rtl812x.Lib.Loop

/-!
# What a call of `rxRingService` delivers

The service loop takes the completed descriptors from `rxNextDescIndex` on.  It empties the slot of a
whole frame and arms every other descriptor in place, that is, it rewrites the words its own test looks
at; a second loop then goes over all 1024 slots and fills the empty ones, from the framework's FIFO
first, until neither source has a packet.

* `rxCompleted` — how many descriptors in a row are completed when the call begins;
* `Served` — **the state after `j` descriptors, in terms of the state the call began with**; `Served.step`
  is one round, `rxServiceLoop_served` the loop;
* `rxRefillLoop_slots`, `rxRefillLoop_ranOut` — what the refill does to a slot, and why it stops;
* `rxRingService_delivers` — **exactly the whole frames are delivered**, once each and in ring order.
-/

namespace Rtl812x.Dext

open Circular Loop

/-! ### What the call finds -/

/-- The descriptor holds a whole frame without error, and more than its FCS. -/
def WholeFrame (d : RxDesc) : Prop :=
  d.opts1 &&& rxRES = 0 ∧ d.opts1 &&& firstFrag ≠ 0 ∧ d.opts1 &&& lastFrag ≠ 0 ∧
    4 < (d.opts1 &&& 0x3fff).toNat

instance (d : RxDesc) : Decidable (WholeFrame d) := inferInstanceAs (Decidable (_ ∧ _ ∧ _ ∧ _))

theorem rxBad_iff (d : RxDesc) : rxBad d.opts1 ↔ ¬ WholeFrame d := by
  have hlen : rxLength d.opts1 ≤ 0 ↔ ¬ 4 < (d.opts1 &&& 0x3fff).toNat := by
    rw [rxLength]
    omega
  rw [rxBad, WholeFrame, hlen]
  tauto

section Found

variable (s : RxSide)

/-- The ring index `j` places on. -/
def rxSlot (j : ℕ) : ℕ := slot kNumRxDesc s.rxNextDescIndex j

/-- The descriptor in slot `i` is not the chip's, and there is a packet. -/
def rxDone (i : ℕ) : Bool := !(s.rxRing i).own && (s.rxPkt i).isSome

/-- **The number of completed descriptors in a row**, at most the whole ring. -/
def rxCompleted : ℕ := runLength (fun j => rxDone s (rxSlot s j)) kNumRxDesc

/-- The packet of the descriptor `j` places on, if it holds a whole frame. -/
def rxFrameAt (j : ℕ) : Option ℕ :=
  if WholeFrame (s.rxRing (rxSlot s j)) then s.rxPkt (rxSlot s j) else none

/-- The packets with whole frames among the first `j` descriptors, in ring order. -/
def rxFrames (j : ℕ) : List ℕ := (List.range j).filterMap (rxFrameAt s)

variable {s}

theorem rxFrames_succ (j : ℕ) : rxFrames s (j + 1) = rxFrames s j ++ (rxFrameAt s j).toList := by
  rw [rxFrames, List.range_succ, List.filterMap_append]
  cases h : rxFrameAt s j <;> simp [rxFrames, h]

theorem rxFrames_length_le {j k : ℕ} (h : j ≤ k) : (rxFrames s j).length ≤ (rxFrames s k).length :=
  ((List.range_sublist.mpr h).filterMap _).length_le

theorem rxSlot_inj {j k : ℕ} (hj : j < kNumRxDesc) (hk : k < kNumRxDesc)
    (h : rxSlot s j = rxSlot s k) : j = k := slot_inj hj hk h

end Found

/-! ### The service loop -/

/-- What the call has done to slot `i` if it has come by it. -/
structure ServedSlot (s₀ s : RxSide) (i : ℕ) : Prop where
  frame : WholeFrame (s₀.rxRing i) → s.rxPkt i = none
  rearmed : ¬ WholeFrame (s₀.rxRing i) →
    s.rxPkt i = s₀.rxPkt i ∧ s.rxRing i = { s₀.rxRing i with opts1 := rxArmWord i }

/-- `s` is what the call has made of `s₀` after `j` descriptors. -/
structure Served (s₀ : RxSide) (queued : List ℕ) (j : ℕ) (s : RxSide) : Prop where
  next : s.rxNextDescIndex = rxSlot s₀ j
  ahead : ∀ i, ¬ InWindow kNumRxDesc s₀.rxNextDescIndex j i →
    s.rxPkt i = s₀.rxPkt i ∧ s.rxRing i = s₀.rxRing i
  behind : ∀ m < j, ServedSlot s₀ s (rxSlot s₀ m)
  done : Holds s.rxDoneFifo (queued ++ rxFrames s₀ j)
  free : s.rxFreeFifo = s₀.rxFreeFifo
  -- a packet in two slots would have the length of the later one
  length : ∀ m < j, ∀ p, rxFrameAt s₀ m = some p →
    (∀ m' < j, m < m' → rxFrameAt s₀ m' ≠ some p) →
    s.dataLength p = ((s₀.rxRing (rxSlot s₀ m)).opts1 &&& 0x3fff).toNat - 4

theorem Served.start {s : RxSide} {queued : List ℕ} (hnext : s.rxNextDescIndex < kNumRxDesc)
    (hdone : Holds s.rxDoneFifo queued) : Served s queued 0 s where
  next := (slot_zero hnext).symm
  ahead := fun _ _ => ⟨rfl, rfl⟩
  behind := fun m hm => absurd hm (Nat.not_lt_zero m)
  done := by
    rw [rxFrames, List.range_zero, List.filterMap_nil, List.append_nil]
    exact hdone
  free := rfl
  length := fun m hm => absurd hm (Nat.not_lt_zero m)

section Step

variable {s₀ s : RxSide} {queued : List ℕ} {j p : ℕ}

/-- The slot the loop has come to is as the call found it. -/
theorem Served.current (h : Served s₀ queued j s) (hj : j < kNumRxDesc) :
    s.rxPkt s.rxNextDescIndex = s₀.rxPkt (rxSlot s₀ j) ∧
      s.rxRing s.rxNextDescIndex = s₀.rxRing (rxSlot s₀ j) := by
  rw [h.next]
  exact h.ahead _ (not_inWindow_next hj)

/-- What a round must do to go on from `j` to `j + 1`. -/
theorem Served.advance (h : Served s₀ queued j s) (hj : j < kNumRxDesc) {s' : RxSide}
    (hnext : s'.rxNextDescIndex = slot kNumRxDesc s.rxNextDescIndex 1)
    (hother : ∀ i, i ≠ rxSlot s₀ j → s'.rxPkt i = s.rxPkt i ∧ s'.rxRing i = s.rxRing i)
    (hslot : ServedSlot s₀ s' (rxSlot s₀ j))
    (hdone : Holds s'.rxDoneFifo ((queued ++ rxFrames s₀ j) ++ (rxFrameAt s₀ j).toList))
    (hfree : s'.rxFreeFifo = s.rxFreeFifo)
    (hnew : ∀ q, rxFrameAt s₀ j = some q →
      s'.dataLength q = ((s₀.rxRing (rxSlot s₀ j)).opts1 &&& 0x3fff).toNat - 4)
    (hold : ∀ q, rxFrameAt s₀ j ≠ some q → s'.dataLength q = s.dataLength q) :
    Served s₀ queued (j + 1) s' where
  next := by
    rw [hnext, h.next]
    exact slot_slot _ _ j 1
  ahead := by
    intro i hout
    rw [inWindow_snoc_iff, not_or] at hout
    obtain ⟨hpkt, hring⟩ := hother i (fun he => hout.2 he.symm)
    rw [hpkt, hring]
    exact h.ahead i hout.1
  behind := by
    intro m hm
    rcases Nat.lt_succ_iff_lt_or_eq.mp hm with hlt | rfl
    · have hne : rxSlot s₀ m ≠ rxSlot s₀ j := fun he =>
        absurd (rxSlot_inj (by omega) hj he) (by omega)
      obtain ⟨hpkt, hring⟩ := hother _ hne
      refine ⟨fun hframe => ?_, fun hbad => ?_⟩
      · rw [hpkt]
        exact (h.behind m hlt).frame hframe
      · rw [hpkt, hring]
        exact (h.behind m hlt).rearmed hbad
    · exact hslot
  done := by
    rw [rxFrames_succ, ← List.append_assoc]
    exact hdone
  free := hfree.trans h.free
  length := by
    intro m hm q hq hlast
    rcases Nat.lt_succ_iff_lt_or_eq.mp hm with hlt | rfl
    · rw [hold q (hlast j (Nat.lt_succ_self j) hlt)]
      exact h.length m hlt q hq fun m' hm' => hlast m' (Nat.lt_succ_of_lt hm')
    · exact hnew q hq

/-- A descriptor without a whole frame is armed in place. -/
theorem Served.recycle (h : Served s₀ queued j s) (hj : j < kNumRxDesc)
    (hbad : ¬ WholeFrame (s₀.rxRing (rxSlot s₀ j))) :
    Served s₀ queued (j + 1) (rxAdvance (rxRecycle s.rxNextDescIndex s)) := by
  obtain ⟨hpkt, hring⟩ := h.current hj
  have hnone : rxFrameAt s₀ j = none := if_neg hbad
  refine h.advance hj (and_kRxDescMask _) (fun i hi => ⟨rfl, ?_⟩)
    ⟨fun hf => absurd hf hbad, fun _ => ⟨?_, ?_⟩⟩ ?_ rfl ?_ (fun _ _ => rfl)
  · rw [← h.next] at hi
    exact Function.update_of_ne hi _ _
  · rw [← hpkt, h.next]
    rfl
  · rw [← hring, ← h.next]
    exact Function.update_self _ _ _
  · rw [hnone, Option.toList_none, List.append_nil]
    exact h.done
  · intro q hq
    rw [hnone] at hq
    cases hq

/-- The packet of a whole frame is queued, and its slot becomes empty. -/
theorem Served.deliver (h : Served s₀ queued j s) (hj : j < kNumRxDesc)
    (hframe : WholeFrame (s₀.rxRing (rxSlot s₀ j))) (hp : s₀.rxPkt (rxSlot s₀ j) = some p)
    (hroom : (queued ++ rxFrames s₀ j).length < kFifoMask) :
    Served s₀ queued (j + 1) (rxAdvance (rxDeliver s.rxNextDescIndex p s)) := by
  obtain ⟨hpkt, hring⟩ := h.current hj
  have hsome : rxFrameAt s₀ j = some p := (if_pos hframe).trans hp
  have hlen : (rxLength (s.rxRing s.rxNextDescIndex).opts1).toNat =
      ((s₀.rxRing (rxSlot s₀ j)).opts1 &&& 0x3fff).toNat - 4 := by
    rw [hring, rxLength]
    omega
  refine h.advance hj (and_kRxDescMask _) (fun i hi => ⟨?_, rfl⟩)
    ⟨fun _ => ?_, fun hbad => absurd hframe hbad⟩ ?_ rfl ?_ ?_
  · rw [← h.next] at hi
    exact Function.update_of_ne hi _ _
  · rw [← h.next]
    exact Function.update_self _ _ _
  · rw [hsome]
    exact (fifoPush_holds h.done hroom p).2
  · intro q hq
    rw [hsome, Option.some_inj] at hq
    rw [← hlen, ← hq]
    exact Function.update_self _ _ _
  · intro q hq
    exact Function.update_of_ne (fun he => hq (by rw [hsome, he])) _ _

/-- **One round of the service loop.** -/
theorem Served.step (h : Served s₀ queued j s) (hj : j < kNumRxDesc)
    (hp : s.rxPkt s.rxNextDescIndex = some p)
    (hroom : (queued ++ rxFrames s₀ (j + 1)).length ≤ kFifoMask) :
    Served s₀ queued (j + 1) (rxServiceOne p s) := by
  obtain ⟨hpkt, hring⟩ := h.current hj
  rw [hpkt] at hp
  rw [rxServiceOne, hring]
  by_cases hframe : WholeFrame (s₀.rxRing (rxSlot s₀ j))
  · rw [if_neg (by rw [rxBad_iff]; exact not_not.mpr hframe)]
    have hsome : rxFrameAt s₀ j = some p := (if_pos hframe).trans hp
    rw [rxFrames_succ, hsome] at hroom
    refine h.deliver hj hframe hp ?_
    simp only [List.length_append, Option.toList_some, List.length_singleton] at hroom ⊢
    omega
  · rw [if_pos ((rxBad_iff _).mpr hframe)]
    exact h.recycle hj hframe

/-- **The service loop** handles the completed descriptors and stops behind them. -/
theorem rxServiceLoop_served {budget : ℕ} (delivered : Bool) (h : Served s₀ queued j s)
    (hbudget : budget + j = kNumRxDesc) (hj : j ≤ rxCompleted s₀)
    (hroom : (queued ++ rxFrames s₀ (rxCompleted s₀)).length ≤ kFifoMask) :
    Served s₀ queued (rxCompleted s₀) (rxServiceLoop budget delivered s).2 := by
  have hle : rxCompleted s₀ ≤ kNumRxDesc := runLength_le _ _
  induction budget generalizing j s delivered with
  | zero =>
      have hall : j = rxCompleted s₀ := by omega
      rw [← hall]
      exact h
  | succ budget ih =>
      obtain ⟨hpkt, hring⟩ := h.current (by omega)
      rcases Nat.lt_or_eq_of_le hj with hlt | heq
      · -- one more completed descriptor
        have hdone : rxDone s₀ (rxSlot s₀ j) = true :=
          runLength_holds (p := fun j => rxDone s₀ (rxSlot s₀ j)) hlt
        rw [rxDone, Bool.and_eq_true, Bool.not_eq_true', Option.isSome_iff_exists] at hdone
        obtain ⟨hown, p, hp⟩ := hdone
        have hone : rxServiceLoop (budget + 1) delivered s = rxServiceLoop budget
            (delivered || !decide (rxBad (s.rxRing s.rxNextDescIndex).opts1)) (rxServiceOne p s) := by
          simp only [rxServiceLoop, hring, hown, hpkt, hp, Bool.false_eq_true, if_false]
        rw [hone]
        refine ih _ (h.step (by omega) (hpkt.trans hp) ?_) (by omega) hlt
        refine le_trans ?_ hroom
        rw [List.length_append, List.length_append]
        exact Nat.add_le_add_left (rxFrames_length_le hlt) _
      · -- the loop's own test fails where the row ends
        have hdone : rxDone s₀ (rxSlot s₀ j) = false := by
          rw [heq]
          exact runLength_ends (by show rxCompleted s₀ < _; omega)
        have hstop : (rxServiceLoop (budget + 1) delivered s).2 = s := by
          simp only [rxServiceLoop, hring, hpkt]
          split
          · rfl
          case isFalse hown =>
            split
            · rfl
            case h_2 p hp => simp [rxDone, hp, hown] at hdone
        rw [hstop, ← heq]
        exact h

end Step

/-! ### The refill -/

section Refill

variable {iova : ℕ → ℕ} {outcome : ℕ → Option ℕ} {s : RxSide} {is : List ℕ}

/-- A slot that a refill has come by or not: as it was, or empty before and armed now. -/
def Refilled (s s' : RxSide) (i : ℕ) : Prop :=
  s'.rxPkt i = s.rxPkt i ∧ s'.rxRing i = s.rxRing i ∨
    s.rxPkt i = none ∧ (s'.rxPkt i).isSome = true ∧ (s'.rxRing i).own = true

/-- `rxTake` leaves the packets that are queued and their lengths alone. -/
theorem rxTake_queued (outcome : ℕ → Option ℕ) (s : RxSide) :
    (rxTake outcome s).2.rxDoneFifo = s.rxDoneFifo ∧
      (rxTake outcome s).2.dataLength = s.dataLength := by
  obtain ⟨fifo, pool, calls, h⟩ := rxTake_state outcome s
  rw [h]
  exact ⟨rfl, rfl⟩

theorem rxArmedDesc_own (i addr : ℕ) : (⟨rxArmWord i, 0, addr⟩ : RxDesc).own = true := by
  simpa [RxDesc.own] using rxArmWord_own i

/-- **A refill fills empty slots and touches nothing else.** -/
theorem rxRefillLoop_slots (iova : ℕ → ℕ) (outcome : ℕ → Option ℕ) (s : RxSide)
    (his : ∀ i ∈ is, i < kNumRxDesc) :
    (∀ i, Refilled s (rxRefillLoop iova outcome is s).2 i) ∧
      (rxRefillLoop iova outcome is s).2.rxDoneFifo = s.rxDoneFifo ∧
      (rxRefillLoop iova outcome is s).2.dataLength = s.dataLength := by
  refine rxRefillLoop_induction (P := fun s' => (∀ i, Refilled s s' i) ∧
    s'.rxDoneFifo = s.rxDoneFifo ∧ s'.dataLength = s.dataLength) ?_ ?_ his
    ⟨fun i => Or.inl ⟨rfl, rfl⟩, rfl, rfl⟩
  · intro r hr _
    obtain ⟨hpkt, hring, -⟩ := rxTake_frame outcome r
    obtain ⟨hdone, hlen⟩ := rxTake_queued outcome r
    refine ⟨fun i => ?_, hdone.trans hr.2.1, hlen.trans hr.2.2⟩
    rw [Refilled, hpkt, hring]
    exact hr.1 i
  · intro r i p _ hr hempty _
    obtain ⟨hpkt, hring, -⟩ := rxTake_frame outcome r
    obtain ⟨hdone, hlen⟩ := rxTake_queued outcome r
    refine ⟨fun j => ?_, hdone.trans hr.2.1, hlen.trans hr.2.2⟩
    rw [Refilled]
    simp only [rxArm]
    by_cases hji : j = i
    · -- an empty slot was empty when the refill began
      have hwas : s.rxPkt j = none := by
        rcases hr.1 j with ⟨hsame, -⟩ | ⟨hnone, -⟩
        · rw [← hsame, hji, hempty]
        · exact hnone
      rw [hji, Function.update_self, Function.update_self, ← hji]
      exact Or.inr ⟨hwas, rfl, rxArmedDesc_own _ _⟩
    · rw [Function.update_of_ne hji, Function.update_of_ne hji, hpkt, hring]
      exact hr.1 j

/-- The framework's FIFO is empty, and the last call of `allocatePacket` failed. -/
def RanOut (outcome : ℕ → Option ℕ) (s : RxSide) : Prop :=
  Holds s.rxFreeFifo [] ∧
    ∃ n, s.allocCalls = n + 1 ∧ ∀ k, outcome n = some k → s.rxPool[k]? = none

/-- What a call of `rxTake` leaves in the framework's FIFO, and why it fails. -/
theorem rxTake_free (outcome : ℕ → Option ℕ) {free : List ℕ} (h : Holds s.rxFreeFifo free) :
    (∃ free', Holds (rxTake outcome s).2.rxFreeFifo free') ∧
      ((rxTake outcome s).1 = none → RanOut outcome (rxTake outcome s).2) := by
  simp only [rxTake]
  cases free with
  | cons p free =>
      obtain ⟨hsome, hrest⟩ := fifoPop_cons h
      rw [hsome]
      exact ⟨⟨free, hrest⟩, fun hnone => absurd hnone (Option.some_ne_none p)⟩
  | nil =>
      rw [fifoPop_nil h]
      simp only [rxAllocate]
      split
      case h_1 hout =>
        refine ⟨⟨[], h⟩, fun _ => ⟨h, s.allocCalls, rfl, fun k hk => ?_⟩⟩
        rw [hout] at hk
        cases hk
      case h_2 k hout =>
        split
        case h_1 hget =>
          refine ⟨⟨[], h⟩, fun _ => ⟨h, s.allocCalls, rfl, fun k' hk => ?_⟩⟩
          rw [hout, Option.some_inj] at hk
          rw [← hk]
          exact hget
        case h_2 p _ => exact ⟨⟨[], h⟩, fun hnone => absurd hnone (Option.some_ne_none p)⟩

/-- **A refill stops early only when it ran out of packets**; else it fills every slot. -/
theorem rxRefillLoop_ranOut (iova : ℕ → ℕ) (outcome : ℕ → Option ℕ) {free : List ℕ}
    (hfree : Holds s.rxFreeFifo free) (his : ∀ i ∈ is, i < kNumRxDesc) :
    RanOut outcome (rxRefillLoop iova outcome is s).2 ∨
      ∀ i ∈ is, (rxRefillLoop iova outcome is s).2.rxPkt i ≠ none := by
  induction is generalizing s free with
  | nil => exact Or.inr fun i hi => absurd hi List.not_mem_nil
  | cons i is ih =>
      have his' : ∀ j ∈ is, j < kNumRxDesc := fun j hj => his j (List.mem_cons_of_mem _ hj)
      -- once slot `i` has a packet, the rest of the loop decides
      have hrest : ∀ {r : RxSide} {free : List ℕ}, Holds r.rxFreeFifo free → r.rxPkt i ≠ none →
          RanOut outcome (rxRefillLoop iova outcome is r).2 ∨
            ∀ j ∈ i :: is, (rxRefillLoop iova outcome is r).2.rxPkt j ≠ none := by
        intro r free hr hfull
        refine (ih hr his').imp_right fun hfills j hj => ?_
        rcases List.mem_cons.mp hj with rfl | hj
        · exact rxRefillLoop_keeps_slot his' hfull
        · exact hfills j hj
      cases hpkt : s.rxPkt i with
      | some p =>
          rw [rxRefillLoop_cons_some hpkt]
          exact hrest hfree (by rw [hpkt]; exact Option.some_ne_none p)
      | none =>
          rw [rxRefillLoop_cons_none hpkt]
          obtain ⟨⟨free', hfree'⟩, hout⟩ := rxTake_free outcome hfree
          cases htake : (rxTake outcome s).1 with
          | none => exact Or.inl (hout htake)
          | some p =>
              refine hrest (r := rxArm iova i p (rxTake outcome s).2) hfree' ?_
              simp [rxArm]

end Refill

/-! ### The call -/

/-- What a call of `rxRingService` makes of `s`, with the packets `queued` in `rxDoneFifo`. -/
structure Delivered (outcome : ℕ → Option ℕ) (queued : List ℕ) (s s' : RxSide) : Prop where
  next : s'.rxNextDescIndex = (s.rxNextDescIndex + rxCompleted s) % kNumRxDesc
  done : Holds s'.rxDoneFifo (queued ++ rxFrames s (rxCompleted s))
  /-- the length field without the FCS; of a packet in two slots, that of the later one -/
  length : ∀ m < rxCompleted s, ∀ p, rxFrameAt s m = some p →
    (∀ m' < rxCompleted s, m < m' → rxFrameAt s m' ≠ some p) →
    s'.dataLength p = ((s.rxRing (rxSlot s m)).opts1 &&& 0x3fff).toNat - 4
  rearmed : ∀ m < rxCompleted s, ¬ WholeFrame (s.rxRing (rxSlot s m)) →
    s'.rxPkt (rxSlot s m) = s.rxPkt (rxSlot s m) ∧
    s'.rxRing (rxSlot s m) = { s.rxRing (rxSlot s m) with opts1 := rxArmWord (rxSlot s m) } ∧
    ((s'.rxRing (rxSlot s m)).opts1 &&& ringEnd ≠ 0 ↔ rxSlot s m = 1023)
  /-- armed with a packet, untouched, or empty for want of packets -/
  slots : ∀ i < kNumRxDesc,
    (s'.rxPkt i).isSome = true ∧ (s'.rxRing i).own = true ∨
    s'.rxPkt i = s.rxPkt i ∧ s'.rxRing i = s.rxRing i ∨
    s'.rxPkt i = none ∧ RanOut outcome s'

section Call

variable {outcome : ℕ → Option ℕ} {queued : List ℕ} {s r s' : RxSide} {i m : ℕ}

/-- A descriptor that was armed in place keeps its packet and its word. -/
theorem Served.rearmed_kept (h : Served s queued (rxCompleted s) r) (hrefill : ∀ i, Refilled r s' i)
    (hm : m < rxCompleted s) (hbad : ¬ WholeFrame (s.rxRing (rxSlot s m))) :
    (s'.rxPkt (rxSlot s m) = s.rxPkt (rxSlot s m) ∧
      s'.rxRing (rxSlot s m) = { s.rxRing (rxSlot s m) with opts1 := rxArmWord (rxSlot s m) } ∧
      ((s'.rxRing (rxSlot s m)).opts1 &&& ringEnd ≠ 0 ↔ rxSlot s m = 1023)) ∧
    (s'.rxPkt (rxSlot s m)).isSome = true ∧ (s'.rxRing (rxSlot s m)).own = true := by
  have hdone : rxDone s (rxSlot s m) = true :=
    runLength_holds (p := fun j => rxDone s (rxSlot s j)) hm
  rw [rxDone, Bool.and_eq_true] at hdone
  obtain ⟨hpkt, hring⟩ := (h.behind m hm).rearmed hbad
  rcases hrefill (rxSlot s m) with ⟨hpkt', hring'⟩ | ⟨hnone, -⟩
  · rw [hpkt', hring', hpkt, hring]
    refine ⟨⟨rfl, rfl, rxArmWord_ringEnd_iff _⟩, hdone.2, ?_⟩
    simpa [RxDesc.own] using rxArmWord_own (rxSlot s m)
  · rw [hpkt] at hnone
    rw [hnone] at hdone
    cases hdone.2

/-- Every slot after the refill. -/
theorem Served.slot_cases (h : Served s queued (rxCompleted s) r) (hrefill : ∀ i, Refilled r s' i)
    (hran : RanOut outcome s' ∨ ∀ i ∈ List.range kNumRxDesc, s'.rxPkt i ≠ none)
    (hi : i < kNumRxDesc) :
    (s'.rxPkt i).isSome = true ∧ (s'.rxRing i).own = true ∨
    s'.rxPkt i = s.rxPkt i ∧ s'.rxRing i = s.rxRing i ∨
    s'.rxPkt i = none ∧ RanOut outcome s' := by
  by_cases hin : InWindow kNumRxDesc s.rxNextDescIndex (rxCompleted s) i
  · obtain ⟨m, hm, rfl⟩ := hin
    by_cases hframe : WholeFrame (s.rxRing (rxSlot s m))
    · -- the slot was emptied
      have hempty := (h.behind m hm).frame hframe
      rcases hrefill (rxSlot s m) with ⟨hpkt, -⟩ | ⟨-, hfull⟩
      · refine Or.inr (Or.inr ⟨hpkt.trans hempty, hran.resolve_right fun hfills => ?_⟩)
        exact hfills _ (List.mem_range.mpr hi) (hpkt.trans hempty)
      · exact Or.inl hfull
    · exact Or.inl (h.rearmed_kept hrefill hm hframe).2
  · obtain ⟨hpkt, hring⟩ := h.ahead i hin
    rcases hrefill i with ⟨hpkt', hring'⟩ | ⟨-, hfull⟩
    · exact Or.inr (Or.inl ⟨hpkt'.trans hpkt, hring'.trans hring⟩)
    · exact Or.inl hfull

/-- The refill completes the call. -/
theorem Served.refilled (h : Served s queued (rxCompleted s) r) (iova : ℕ → ℕ)
    (outcome : ℕ → Option ℕ) {free : List ℕ} (hfree : Holds s.rxFreeFifo free) :
    Delivered outcome queued s (rxRingRefill iova outcome r).2 := by
  obtain ⟨hrefill, hdone, hlen⟩ := rxRefillLoop_slots iova outcome r mem_range_lt
  have hran := rxRefillLoop_ranOut iova outcome (h.free ▸ hfree) mem_range_lt
  have hnext := rxRingRefill_next iova outcome r
  rw [rxRingRefill] at hnext ⊢
  generalize rxRefillLoop iova outcome (List.range kNumRxDesc) r = out at *
  refine ⟨?_, ?_, ?_, fun m hm hbad => (h.rearmed_kept hrefill hm hbad).1,
    fun i hi => h.slot_cases hrefill hran hi⟩
  · rw [hnext, h.next]
    rfl
  · rw [hdone]
    exact h.done
  · rw [hlen]
    exact h.length

/-- The announcement changes the record only. -/
theorem Delivered.announce (h : Delivered outcome queued s s') (delivered : Bool) :
    Delivered outcome queued s (rxAnnounce delivered s') := by
  rw [rxAnnounce]
  split
  · exact ⟨h.next, h.done, h.length, h.rearmed, h.slots⟩
  · exact h

end Call

/-- **`rxRingService` delivers exactly the completed frames.**  With room in `rxDoneFifo` it takes the
completed descriptors in a row, queues the packets of whole frames in ring order, arms the others in
place, and leaves a slot empty only when there are no packets. -/
theorem rxRingService_delivers (iova : ℕ → ℕ) (outcome : ℕ → Option ℕ) (s : RxSide)
    (queued free : List ℕ) (hnext : s.rxNextDescIndex < kNumRxDesc)
    (hdone : Holds s.rxDoneFifo queued) (hfree : Holds s.rxFreeFifo free)
    (hroom : (queued ++ rxFrames s (rxCompleted s)).length ≤ kFifoMask) :
    Delivered outcome queued s (rxRingService iova outcome s) := by
  have hserved : Served s queued (rxCompleted s) (rxServiceLoop kNumRxDesc false s).2 :=
    rxServiceLoop_served false (Served.start hnext hdone) rfl (Nat.zero_le _) hroom
  rw [rxRingService]
  generalize rxServiceLoop kNumRxDesc false s = loop at hserved ⊢
  exact (hserved.refilled iova outcome hfree).announce _

/-- The descriptors 1022, 1023 and 0 are completed, the second one with an error. -/
def wrappedFrames : RxSide :=
  { RxSide.init with
    rxRing := fun i =>
      if i = 1022 ∨ i = 0 then ⟨firstFrag ||| lastFrag ||| 1518, 0, i⟩
      else if i = 1023 then ⟨firstFrag ||| lastFrag ||| rxRES ||| 64, 0, i⟩
      else ⟨rxArmWord i, 0, i⟩
    rxPkt := some
    rxNextDescIndex := 1022 }

theorem rxRingService_delivers_wrapped :
    Delivered (fun _ => none) [] wrappedFrames (rxRingService id (fun _ => none) wrappedFrames) ∧
      rxCompleted wrappedFrames = 3 ∧ rxFrames wrappedFrames 3 = [1022, 0] := by
  have hcompleted : rxCompleted wrappedFrames = 3 := by decide +kernel
  have hframes : rxFrames wrappedFrames 3 = [1022, 0] := by decide +kernel
  refine ⟨rxRingService_delivers id _ wrappedFrames [] [] (by decide) holds_empty holds_empty ?_,
    hcompleted, hframes⟩
  rw [hcompleted, hframes]
  decide

end Rtl812x.Dext
