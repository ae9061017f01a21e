import Rtl812x.Kext.RxPoolInv

/-!
# The integrity of the receive pool

What the two threads can rely on after a successful `initWithCapacity`: the lists are never empty, the
counters never promise more than is there nor exceed the capacities, between calls they are exact, and a
packet is handed out once.

The counters are `SInt32` and the capacities `UInt32`.  A capacity of `2 ^ 31` or more makes the counter
of a list that has just been filled negative.

* `FillInv`, `fill_inv` — the loops of `initWithCapacity`; `initWithCapacity_inv` — the pool they leave;
* `Integrity` — the property; `PoolInv.integrity` — the invariant of the threads gives it;
* `rxPool_integrity_iff` — **it holds in every interleaving exactly if both capacities fit the counters.**
-/

namespace Rtl812x.Kext.RxPool

open LinkedList Runs

/-! ### Setting the pool up -/

/-- The pool while `initWithCapacity` fills it: each list holds the packets `linked`. -/
structure FillInv (p : Pool) (linked : Kind → List ℕ) (capacity : Kind → ℕ) : Prop where
  path : ∀ k, Path p.nextpkt (p.pktHead k) (linked k)
  tail : ∀ k, p.pktTail k = (linked k).getLast?
  num : ∀ k, p.pktNum k = sint32 (linked k).length
  owned : Slots.Numbered p.calls (linked .mbuf ++ linked .clust)
  fresh : ∀ x, p.calls ≤ x → p.nextpkt x = none
  capacity_eq : p.capacity = capacity
  handedOut : p.handedOut = []

variable {p p' : Pool} {linked : Kind → List ℕ} {capacity : Kind → ℕ} {k : Kind}

theorem FillInv.head_isSome (h : FillInv p linked capacity) (k : Kind) :
    (p.pktHead k).isSome = true ↔ linked k ≠ [] := by
  have hpath := h.path k
  cases hl : linked k with
  | nil =>
      rw [hl] at hpath
      rw [show p.pktHead k = none from hpath]
      simp
  | cons a l =>
      rw [hl] at hpath
      rw [hpath.1]
      simp

/-- The next packet is in no list. -/
theorem FillInv.calls_notMem (h : FillInv p linked capacity) (k : Kind) : p.calls ∉ linked k := by
  intro hmem
  refine Nat.lt_irrefl p.calls (h.owned.lt _ ?_)
  cases k <;> simp [hmem]

theorem FillInv.owned_append (h : FillInv p linked capacity) (k : Kind) :
    Slots.Numbered (p.calls + 1) (Function.update linked k (linked k ++ [p.calls]) .mbuf ++
      Function.update linked k (linked k ++ [p.calls]) .clust) := by
  refine h.owned.create (List.perm_iff_count.mpr fun x => ?_)
  have hlists := count_update linked k (linked k ++ [p.calls]) x
  simp only [List.count_append, List.count_cons, List.count_nil] at hlists ⊢
  omega

/-- The tails and the counters, with the packet at the end of its list. -/
theorem FillInv.tail_append (h : FillInv p linked capacity) (k k' : Kind) :
    Function.update p.pktTail k (some p.calls) k' =
      (Function.update linked k (linked k ++ [p.calls]) k').getLast? :=
  forall_update₂ (P := fun _ t l => t = List.getLast? l) List.getLast?_concat.symm (fun k' _ => h.tail k') k'

theorem FillInv.num_append (h : FillInv p linked capacity) (k k' : Kind) :
    Function.update p.pktNum k (sint32 ((linked k).length + 1 : ℕ)) k' =
      sint32 (Function.update linked k (linked k ++ [p.calls]) k').length := by
  refine forall_update₂ (P := fun _ n l => n = sint32 (List.length l)) ?_ (fun k' _ => h.num k') k'
  rw [List.length_append, List.length_singleton]

/-- The first packet of a list. -/
theorem FillInv.append_first (h : FillInv p linked capacity) (hl : linked k = []) :
    FillInv (Pool.append { p with calls := p.calls + 1 } k p.calls)
      (Function.update linked k (linked k ++ [p.calls])) capacity := by
  have hone : sint32 ((linked k).length + 1 : ℕ) = 1 := by
    rw [hl]
    exact sint32_eq (by decide) (by decide)
  have hpath : Path p.nextpkt (some p.calls) (linked k ++ [p.calls]) := by
    rw [hl]
    exact path_singleton (h.fresh _ (Nat.le_refl _))
  rw [Pool.append, if_neg (by rw [h.head_isSome k]; simpa using hl)]
  refine ⟨?_, h.tail_append k, ?_, h.owned_append k, fun x hx => h.fresh x (Nat.le_of_succ_le hx),
    h.capacity_eq, h.handedOut⟩
  · exact forall_update₂ (P := fun _ head l => Path p.nextpkt head l) hpath fun k' _ => h.path k'
  · have hnum := h.num_append k
    rw [hone] at hnum
    exact hnum

/-- A packet that is linked to the last one of a list. -/
theorem FillInv.append_linked (h : FillInv p linked capacity) (hl : linked k ≠ []) :
    FillInv (Pool.append { p with calls := p.calls + 1 } k p.calls)
      (Function.update linked k (linked k ++ [p.calls])) capacity := by
  obtain ⟨l, t, hlt⟩ : ∃ l t, linked k = l ++ [t] := ⟨_, _, (List.dropLast_append_getLast hl).symm⟩
  have hpt : p.pktTail k = some t := by
    rw [h.tail k, hlt, List.getLast?_concat]
  have hmem : t ∈ linked k := by
    rw [hlt]
    simp
  have hcount := h.owned.count_le_one t
  rw [List.count_append] at hcount
  have hpos := List.count_pos_iff.mpr hmem
  have hne : p.calls ≠ t := fun he => h.calls_notMem k (he ▸ hmem)
  rw [Pool.append, if_pos (by rw [h.head_isSome k]; exact hl)]
  simp only [hpt, Pool.setnextpkt]
  refine ⟨?_, h.tail_append k, ?_, h.owned_append k, ?_, h.capacity_eq, h.handedOut⟩
  · refine (Function.forall_update_iff linked fun k' l' =>
      Path (Function.update p.nextpkt t (some p.calls)) (p.pktHead k') l').mpr ⟨?_, fun k' hk => ?_⟩
    · have hpath := h.path k
      have honce : (l ++ [t]).count t ≤ 1 := by
        rw [← hlt]
        cases k <;> omega
      rw [List.count_append, List.count_singleton_self] at honce
      rw [hlt] at hpath
      rw [hlt, List.append_assoc]
      exact hpath.snoc (List.count_eq_zero.mp (by omega)) hne (h.fresh _ (Nat.le_refl _))
    · refine (h.path k').update_of_notMem (List.count_eq_zero.mp ?_) _
      cases k <;> cases k' <;> first | exact absurd rfl hk | omega
  · have hsucc : sint32 (p.pktNum k + 1) = sint32 ((linked k).length + 1 : ℕ) := by
      rw [h.num k, sint32_add_one]
      rfl
    have hnum := h.num_append k
    rw [← hsucc] at hnum
    exact hnum
  · intro x hx
    have htlt : t < p.calls := h.owned.lt t (by cases k <;> simp [hmem])
    show Function.update p.nextpkt t (some p.calls) x = none
    rw [Function.update_of_ne (Nat.ne_of_gt (Nat.lt_of_lt_of_le htlt (Nat.le_of_succ_le hx)))]
    exact h.fresh x (Nat.le_of_succ_le hx)

/-- **A packet joins a list.** -/
theorem FillInv.append (h : FillInv p linked capacity) (k : Kind) :
    FillInv (Pool.append { p with calls := p.calls + 1 } k p.calls)
      (Function.update linked k (linked k ++ [p.calls])) capacity := by
  by_cases hl : linked k = []
  · exact h.append_first hl
  · exact h.append_linked hl

/-- **The loop that fills a list** leaves the packets it adds. -/
theorem fill_inv {n : ℕ} (h : FillInv p linked capacity) (hfill : fill k n p = (true, p')) :
    ∃ added, added.length = n ∧ FillInv p' (Function.update linked k (linked k ++ added)) capacity := by
  induction n generalizing p linked with
  | zero =>
      obtain rfl : p = p' := (Prod.mk.inj hfill).2
      refine ⟨[], rfl, ?_⟩
      rw [List.append_nil, Function.update_eq_self]
      exact h
  | succ n ih =>
      simp only [fill, Pool.allocpacket] at hfill
      cases hok : p.allocs p.calls with
      | false => simp [hok] at hfill
      | true =>
          simp only [hok, if_true] at hfill
          obtain ⟨added, hlen, hinv⟩ := ih (h.append k) hfill
          refine ⟨p.calls :: added, by rw [List.length_cons, hlen], ?_⟩
          rwa [Function.update_self, Function.update_idem, List.append_assoc] at hinv

theorem append_allocs (p : Pool) (k : Kind) (m : ℕ) : (p.append k m).allocs = p.allocs := by
  rw [Pool.append]
  split
  · cases p.pktTail k <;> rfl
  · rfl

/-- With allocations that succeed the loop gets to its end. -/
theorem fill_succeeds (k : Kind) (n : ℕ) (p : Pool) (hok : ∀ c, p.allocs c = true) :
    (fill k n p).1 = true ∧ (fill k n p).2.allocs = p.allocs := by
  induction n generalizing p with
  | zero => exact ⟨rfl, rfl⟩
  | succ n ih =>
      simp only [fill, Pool.allocpacket, hok p.calls, if_true]
      have hallocs := append_allocs { p with calls := p.calls + 1 } k p.calls
      obtain ⟨hdone, hkept⟩ := ih (Pool.append { p with calls := p.calls + 1 } k p.calls) (by rwa [hallocs])
      exact ⟨hdone, hkept.trans hallocs⟩

theorem FillInv.start (mbufCapacity clustCapacity : UInt32) (mhlen : ℕ) (allocs : ℕ → Bool) :
    FillInv (Pool.start mbufCapacity clustCapacity mhlen allocs) (fun _ => [])
      (Pool.start mbufCapacity clustCapacity mhlen allocs).capacity where
  path _ := rfl
  tail _ := rfl
  num _ := by
    show (0 : ℤ) = sint32 0
    exact (sint32_eq (by decide) (by decide)).symm
  owned := Slots.Numbered.nil 0
  fresh _ _ := rfl
  capacity_eq := rfl
  handedOut := rfl

variable {mbufCapacity clustCapacity : UInt32} {mhlen : ℕ} {refillCE : Bool} {allocs : ℕ → Bool}

/-- **A successful `initWithCapacity`** leaves lists as long as the capacities. -/
theorem initWithCapacity_inv
    (hinit : (initWithCapacity mbufCapacity clustCapacity mhlen refillCE allocs).1 = true) :
    ∃ linked, (∀ k, (linked k).length =
        (Pool.start mbufCapacity clustCapacity mhlen allocs).capacity k) ∧
      FillInv (initWithCapacity mbufCapacity clustCapacity mhlen refillCE allocs).2 linked
        (Pool.start mbufCapacity clustCapacity mhlen allocs).capacity := by
  simp only [initWithCapacity] at hinit ⊢
  by_cases hpos : 0 < mbufCapacity ∧ 0 < clustCapacity
  case neg => simp [hpos] at hinit
  simp only [hpos, and_self, if_true] at hinit ⊢
  cases refillCE with
  | false => simp at hinit
  | true =>
      simp only [if_true] at hinit ⊢
      rcases hm : fill .mbuf mbufCapacity.toNat
        (Pool.start mbufCapacity clustCapacity mhlen allocs) with ⟨okm, p⟩
      cases okm with
      | false => simp [hm] at hinit
      | true =>
          simp only [hm] at hinit ⊢
          rcases hc : fill .clust clustCapacity.toNat p with ⟨okc, p'⟩
          cases okc with
          | false => simp [hc] at hinit
          | true =>
              obtain ⟨mbufs, hmlen, hminv⟩ := fill_inv (FillInv.start ..) hm
              obtain ⟨clusts, hclen, hcinv⟩ := fill_inv hminv hc
              refine ⟨_, ?_, hcinv⟩
              intro k
              cases k with
              | mbuf => simpa [Pool.start] using hmlen
              | clust => simpa [Pool.start] using hclen

/-! ### The property -/

/-- **The lists keep their integrity.**  The nodes of a list are those the links lead through from its
head. -/
structure Integrity (s : Sys) : Prop where
  head_ne : ∀ k, s.pool.pktHead k ≠ none
  tail_ne : ∀ k, s.pool.pktTail k ≠ none
  nodes_ge : ∀ k, ∃ nodes, Path s.pool.nextpkt (s.pool.pktHead k) nodes ∧
    s.pool.pktNum k ≤ nodes.length
  nodes_eq : s.consumer = none → s.refill = none → ∀ k, ∃ nodes,
    Path s.pool.nextpkt (s.pool.pktHead k) nodes ∧ (nodes.length : ℤ) = s.pool.pktNum k ∧
      s.pool.pktTail k = nodes.getLast?
  num_le : ∀ k, s.pool.pktNum k ≤ s.pool.capacity k
  num_pos : ∀ k, 1 ≤ s.pool.pktNum k
  once : s.pool.handedOut.Nodup
  unreachable : ∀ k nodes, Path s.pool.nextpkt (s.pool.pktHead k) nodes →
    ∀ m ∈ s.pool.handedOut, m ∉ nodes

variable {s : Sys}

theorem PoolInv.integrity (h : PoolInv s linked) : Integrity s where
  head_ne k := (h.path k).head_ne_none (List.append_ne_nil_of_left_ne_nil (h.linked_ne_nil k) _)
  tail_ne k := by
    rw [h.tail k]
    exact fun hnone => h.linked_ne_nil k (List.getLast?_eq_none_iff.mp hnone)
  nodes_ge k := by
    refine ⟨_, h.path k, ?_⟩
    have hcount := h.count k
    rw [List.length_append]
    omega
  nodes_eq hc hr k := by
    have hpath := h.path k
    have hcount := h.count k
    rw [Sys.extra, hr] at hpath
    rw [Sys.taking, hc, Sys.uncounted, hr] at hcount
    refine ⟨linked k, ?_, ?_, h.tail k⟩
    · rwa [show (none : Option RefillStmt).elim [] (RefillStmt.extra k) = [] from rfl,
        List.append_nil] at hpath
    · simpa using hcount
  num_le := h.num_le
  num_pos := h.num_pos
  once := by
    rw [List.nodup_iff_count_le_one]
    intro x
    have honce := h.owned.count_le_one x
    rw [Sys.count_packets] at honce
    omega
  unreachable k nodes hnodes m hm := by
    rw [hnodes.unique (h.path k)]
    exact h.notMem_list (Or.inr hm) k

/-- A pool that has just been set up, its capacities fitting the counters. -/
theorem FillInv.poolInv (h : FillInv p linked capacity) (hlen : ∀ k, (linked k).length = capacity k)
    (hpos : ∀ k, 1 ≤ capacity k) (hlt : ∀ k, capacity k < 2 ^ 31) : PoolInv ⟨p, none, none⟩ linked := by
  have hnum : ∀ k, p.pktNum k = capacity k := by
    intro k
    have := hlt k
    rw [h.num k, hlen k]
    exact sint32_eq (by omega) (by omega)
  refine ⟨?_, h.tail, ?_, ?_, ?_, ?_, nofun, nofun, ?_, h.fresh⟩
  · intro k
    show Path p.nextpkt (p.pktHead k) (linked k ++ [])
    rw [List.append_nil]
    exact h.path k
  · intro k
    rw [hlen k]
    show (capacity k : ℤ) = p.pktNum k + (0 : ℕ) + (0 : ℕ)
    rw [hnum k]
    omega
  · intro k
    have := hpos k
    show 1 ≤ p.pktNum k
    rw [hnum k]
    omega
  · intro k
    show p.pktNum k ≤ p.capacity k
    exact Int.le_of_eq (by rw [hnum k, h.capacity_eq])
  · intro k
    show p.capacity k < 2 ^ 31
    rw [h.capacity_eq]
    exact hlt k
  · show Slots.Numbered p.calls (linked .mbuf ++ linked .clust ++ [] ++ [] ++ p.handedOut)
    rw [h.handedOut, List.append_nil, List.append_nil, List.append_nil]
    exact h.owned

/-- A capacity that does not fit the counter makes it negative. -/
theorem sint32_neg {n : ℕ} (hlo : 2 ^ 31 ≤ n) (hhi : n < 2 ^ 32) : sint32 n < 0 := by
  rw [sint32, Int.bmod_def]
  split <;> omega

theorem capacity_lt (k : Kind) :
    (Pool.start mbufCapacity clustCapacity mhlen allocs).capacity k < 2 ^ 32 := by
  cases k with
  | mbuf => exact mbufCapacity.toNat_lt
  | clust => exact clustCapacity.toNat_lt

/-- A list that has just been filled beyond what its counter holds. -/
theorem not_integrity_of_overflow
    (hinit : (initWithCapacity mbufCapacity clustCapacity mhlen refillCE allocs).1 = true) (k : Kind)
    (hge : 2 ^ 31 ≤ (Pool.start mbufCapacity clustCapacity mhlen allocs).capacity k) :
    ¬ Integrity ⟨(initWithCapacity mbufCapacity clustCapacity mhlen refillCE allocs).2, none, none⟩ := by
  intro h
  obtain ⟨linked, hlen, hfill⟩ := initWithCapacity_inv hinit
  have hneg := sint32_neg hge (capacity_lt k)
  have hpos := h.num_pos k
  simp only at hpos
  rw [hfill.num k, hlen k] at hpos
  omega

/-- **The pool keeps its integrity in every interleaving exactly if the counters can hold the
capacities.**  After a successful `initWithCapacity` with capacities of at least 2, for every outcome of
the allocations and every interleaving of the statements of `getPacket` and `refillPool`: heads and tails
are never null; at least as many nodes are reachable as are counted, between calls exactly as many, and
then the tail is the last one; a counter stays between 1 and the capacity; and no packet is handed out
twice or while it is reachable. -/
theorem rxPool_integrity_iff (mbufCapacity clustCapacity : UInt32) (mhlen : ℕ) (refillCE : Bool)
    (allocs : ℕ → Bool) (hmbuf : 2 ≤ mbufCapacity) (hclust : 2 ≤ clustCapacity)
    (hinit : (initWithCapacity mbufCapacity clustCapacity mhlen refillCE allocs).1 = true) :
    (∀ moves, Integrity (exec poolStep
        ⟨(initWithCapacity mbufCapacity clustCapacity mhlen refillCE allocs).2, none, none⟩ moves)) ↔
      mbufCapacity.toNat < 2 ^ 31 ∧ clustCapacity.toNat < 2 ^ 31 := by
  obtain ⟨linked, hlen, hfill⟩ := initWithCapacity_inv hinit
  constructor
  · intro h
    have hfits : ∀ k, (Pool.start mbufCapacity clustCapacity mhlen allocs).capacity k < 2 ^ 31 := by
      intro k
      by_contra hge
      exact not_integrity_of_overflow hinit k (Nat.le_of_not_lt hge) (h [])
    exact ⟨hfits .mbuf, hfits .clust⟩
  · rintro ⟨hm, hc⟩ moves
    have hstart := hfill.poolInv hlen (fun k => ?_) (fun k => ?_)
    · have hstep : ∀ s mv, (∃ linked, PoolInv s linked) → ∃ linked, PoolInv (poolStep s mv) linked := by
        rintro s mv ⟨linked, hs⟩
        exact hs.step mv
      obtain ⟨linked', h⟩ := invariant_exec hstep ⟨linked, hstart⟩
      exact h.integrity
    · have hm2 : 2 ≤ mbufCapacity.toNat := hmbuf
      have hc2 : 2 ≤ clustCapacity.toNat := hclust
      cases k with
      | mbuf => exact Nat.le_of_succ_le hm2
      | clust => exact Nat.le_of_succ_le hc2
    · cases k with
      | mbuf => exact hm
      | clust => exact hc

/-- The sixth and seventh allocations fail: `getPacket` takes packet 0 from the list of plain mbufs,
`refillPool` starts and cannot refill it. -/
def takeOne : List Move :=
  [.getPacket 100] ++ List.replicate 3 .runConsumer ++ [.refillPool, .runRefill] ++
    List.replicate 6 .runConsumer ++ List.replicate 3 .runRefill

theorem rxPool_integrity_takeOne :
    Integrity (exec poolStep
      ⟨(initWithCapacity 2 3 224 true fun n => decide (n < 5)).2, none, none⟩ takeOne) ∧
    (exec poolStep
      ⟨(initWithCapacity 2 3 224 true fun n => decide (n < 5)).2, none, none⟩ takeOne).pool.handedOut = [0] := by
  refine ⟨(rxPool_integrity_iff 2 3 224 true _ (by decide) (by decide) (by decide +kernel)).mpr
    (by decide) takeOne, by decide +kernel⟩

/-- With allocations that succeed, `initWithCapacity` does. -/
theorem initWithCapacity_succeeds (hmbuf : 0 < mbufCapacity) (hclust : 0 < clustCapacity)
    (hok : ∀ c, allocs c = true) :
    (initWithCapacity mbufCapacity clustCapacity mhlen true allocs).1 = true := by
  simp only [initWithCapacity, hmbuf, hclust, and_self, if_true]
  obtain ⟨hm, hallocs⟩ := fill_succeeds .mbuf mbufCapacity.toNat
    (Pool.start mbufCapacity clustCapacity mhlen allocs) hok
  rcases hfill : fill .mbuf mbufCapacity.toNat
    (Pool.start mbufCapacity clustCapacity mhlen allocs) with ⟨okm, p⟩
  rw [hfill] at hm hallocs
  obtain rfl : okm = true := hm
  obtain ⟨hc, -⟩ := fill_succeeds .clust clustCapacity.toNat p
    (by rw [show p.allocs = allocs from hallocs]; exact hok)
  rcases hfill' : fill .clust clustCapacity.toNat p with ⟨okc, p'⟩
  rw [hfill'] at hc
  obtain rfl : okc = true := hc
  simp only [hfill']

/-- **A capacity of `2 ^ 31`**: `initWithCapacity` succeeds, and the counter is negative. -/
theorem rxPool_counter_overflows :
    (initWithCapacity 0x80000000 2 224 true fun _ => true).1 = true ∧
    ¬ Integrity ⟨(initWithCapacity 0x80000000 2 224 true fun _ => true).2, none, none⟩ := by
  have hinit : (initWithCapacity 0x80000000 2 224 true fun _ => true).1 = true :=
    initWithCapacity_succeeds (by decide) (by decide) fun _ => rfl
  refine ⟨hinit, not_integrity_of_overflow hinit .mbuf ?_⟩
  show 2 ^ 31 ≤ (0x80000000 : UInt32).toNat
  decide

end Rtl812x.Kext.RxPool
