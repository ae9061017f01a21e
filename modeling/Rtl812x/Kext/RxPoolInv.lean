import Rtl812x.Lib.Slots
import Rtl812x.Kext.RxPool

/-!
# The lists of the receive pool under two threads

`getPacket` and `refillPool`, statement by statement, in every interleaving.

Each list is the nodes up to its tail, and behind them at most the node that `refillPool` has linked and
not yet made the tail.  The counter is behind the list by the packet that `getPacket` has counted out
and not yet unlinked, and by the packet that `refillPool` has linked and not yet counted; so it never
promises a packet that is not there, and the last packet of a list is never taken.

* `PoolInv` — the invariant, with `GetOk` and `RefillOk`, what each thread knows;
* `PoolInv.runConsumer`, `PoolInv.runRefill`, `PoolInv.step` — **every statement keeps it.**
-/

namespace Rtl812x.Kext.RxPool

open LinkedList

/-! ### Machine integers -/

theorem sint32_eq {n : ℤ} (hlo : -2 ^ 31 ≤ n) (hhi : n < 2 ^ 31) : sint32 n = n := by
  rw [sint32, Int.bmod_def]
  split <;> omega

theorem sint32_add_one (n : ℤ) : sint32 (sint32 n + 1) = sint32 (n + 1) := by
  simp [sint32]

theorem uint32_eq {n : ℤ} (hlo : 0 ≤ n) (hhi : n < 2 ^ 32) : (uint32 n : ℤ) = n := by
  rw [uint32]
  omega

/-! ### Where the packets are -/

/-- The packet that is counted out and not yet unlinked. -/
def GetStmt.taking (k : Kind) : GetStmt → ℕ
  | .takeHead k' | .unlink k' _ => if k' = k then 1 else 0
  | _ => 0

/-- The packet that is unlinked or allocated, and not yet returned. -/
def GetStmt.held : GetStmt → List ℕ
  | .clearNext _ m | .testRefill _ m | .schedule m | .ret m => m.toList
  | _ => []

/-- The packet behind the tail of a list. -/
def RefillStmt.extra (k : Kind) : RefillStmt → List ℕ
  | .setTail k' m => if k' = k then [m] else []
  | _ => []

/-- The packet that is allocated and not yet the tail. -/
def RefillStmt.held : RefillStmt → List ℕ
  | .link _ m | .setTail _ m => [m]
  | _ => []

/-- The packet that is the tail and not yet counted. -/
def RefillStmt.uncounted (k : Kind) : RefillStmt → ℕ
  | .increment k' => if k' = k then 1 else 0
  | _ => 0

def Sys.taking (s : Sys) (k : Kind) : ℕ := s.consumer.elim 0 (GetStmt.taking k)

def Sys.extra (s : Sys) (k : Kind) : List ℕ := s.refill.elim [] (RefillStmt.extra k)

def Sys.uncounted (s : Sys) (k : Kind) : ℕ := s.refill.elim 0 (RefillStmt.uncounted k)

def Sys.heldByConsumer (s : Sys) : List ℕ := s.consumer.elim [] GetStmt.held

def Sys.heldByRefill (s : Sys) : List ℕ := s.refill.elim [] RefillStmt.held

/-- The packets, place by place: the two lists, the hands of the two threads, handed out. -/
def Sys.packets (s : Sys) (linked : Kind → List ℕ) : List ℕ :=
  linked .mbuf ++ linked .clust ++ s.heldByConsumer ++ s.heldByRefill ++ s.pool.handedOut

section Threads

variable {s : Sys} {b : GetStmt} {b' : RefillStmt}

theorem Sys.taking_some (hc : s.consumer = some b) (k : Kind) : s.taking k = b.taking k := by
  rw [Sys.taking, hc]
  rfl

theorem Sys.heldByConsumer_some (hc : s.consumer = some b) : s.heldByConsumer = b.held := by
  rw [Sys.heldByConsumer, hc]
  rfl

theorem Sys.extra_some (hr : s.refill = some b') (k : Kind) : s.extra k = b'.extra k := by
  rw [Sys.extra, hr]
  rfl

theorem Sys.uncounted_some (hr : s.refill = some b') (k : Kind) : s.uncounted k = b'.uncounted k := by
  rw [Sys.uncounted, hr]
  rfl

theorem Sys.heldByRefill_some (hr : s.refill = some b') : s.heldByRefill = b'.held := by
  rw [Sys.heldByRefill, hr]
  rfl

end Threads

/-- What the consumer knows. -/
def GetOk (p : Pool) : GetStmt → Prop
  | .decrement k => 1 < p.pktNum k
  | .unlink k m => m = p.pktHead k
  | _ => True

/-- What the refill thread knows. -/
def RefillOk (p : Pool) : RefillStmt → Prop
  | .alloc k | .setTail k _ | .increment k => p.pktNum k < p.capacity k
  | .link k m => p.pktNum k < p.capacity k ∧ p.nextpkt m = none
  | _ => True

/-- The nodes up to the tail are `linked`; the links lead through them, and through the node behind the
tail if there is one; no packet is in two places. -/
structure PoolInv (s : Sys) (linked : Kind → List ℕ) : Prop where
  path : ∀ k, Path s.pool.nextpkt (s.pool.pktHead k) (linked k ++ s.extra k)
  tail : ∀ k, s.pool.pktTail k = (linked k).getLast?
  count : ∀ k, ((linked k).length : ℤ) = s.pool.pktNum k + s.taking k + s.uncounted k
  num_pos : ∀ k, 1 ≤ s.pool.pktNum k
  num_le : ∀ k, s.pool.pktNum k ≤ s.pool.capacity k
  capacity_lt : ∀ k, s.pool.capacity k < 2 ^ 31
  get_ok : ∀ b ∈ s.consumer, GetOk s.pool b
  refill_ok : ∀ b ∈ s.refill, RefillOk s.pool b
  owned : Slots.Numbered s.pool.calls (s.packets linked)
  fresh : ∀ x, s.pool.calls ≤ x → s.pool.nextpkt x = none

variable {s s' : Sys} {linked : Kind → List ℕ} {k : Kind} {m : ℕ}

theorem PoolInv.linked_ne_nil (h : PoolInv s linked) (k : Kind) : linked k ≠ [] := by
  intro hnil
  have hcount := h.count k
  have hpos := h.num_pos k
  rw [hnil, List.length_nil] at hcount
  omega

theorem Sys.count_packets (s : Sys) (linked : Kind → List ℕ) (x : ℕ) :
    (s.packets linked).count x = (linked .mbuf).count x + (linked .clust).count x +
      s.heldByConsumer.count x + s.heldByRefill.count x + s.pool.handedOut.count x := by
  simp only [Sys.packets, List.count_append]

/-- The node behind the tail is in the hands of the refill thread. -/
theorem Sys.extra_count_le (s : Sys) (k : Kind) (x : ℕ) :
    (s.extra k).count x ≤ s.heldByRefill.count x := by
  rw [Sys.extra, Sys.heldByRefill]
  cases s.refill with
  | none => exact Nat.le_refl _
  | some b =>
      cases b with
      | setTail k' m =>
          by_cases hk : k' = k
          · simp [RefillStmt.extra, RefillStmt.held, hk]
          · simp [RefillStmt.extra, hk]
      | _ => exact Nat.zero_le _

/-- A packet in the hands of the consumer, or handed out, is in no list. -/
theorem PoolInv.notMem_list (h : PoolInv s linked) {x : ℕ}
    (hx : x ∈ s.heldByConsumer ∨ x ∈ s.pool.handedOut) (k : Kind) : x ∉ linked k ++ s.extra k := by
  have honce := h.owned.count_le_one x
  have hextra := s.extra_count_le k x
  have hpos : 0 < s.heldByConsumer.count x + s.pool.handedOut.count x := by
    rcases hx with hx | hx
    · exact Nat.add_pos_left (List.count_pos_iff.mpr hx) _
    · exact Nat.add_pos_right _ (List.count_pos_iff.mpr hx)
  rw [Sys.count_packets] at honce
  rw [← List.count_eq_zero, List.count_append]
  cases k <;> omega

/-- A packet of a list is in it once, in no other list, and not in the hands of the refill thread. -/
theorem PoolInv.linked_once (h : PoolInv s linked) {x : ℕ} (hx : x ∈ linked k) :
    (linked k).count x = 1 ∧ (∀ k', k' ≠ k → x ∉ linked k') ∧ x ∉ s.heldByRefill ∧ x < s.pool.calls := by
  have honce := h.owned.count_le_one x
  have hpos := List.count_pos_iff.mpr hx
  rw [Sys.count_packets] at honce
  refine ⟨?_, ?_, ?_, h.owned.lt x ?_⟩
  · cases k <;> omega
  · intro k' hk'
    rw [← List.count_eq_zero]
    cases k <;> cases k' <;> first | exact absurd rfl hk' | omega
  · rw [← List.count_eq_zero]
    cases k <;> omega
  · rw [Sys.packets]
    cases k <;> simp [hx]

/-- What the consumer knows stays true while the counter only grows and the head stays. -/
theorem GetOk.mono {p p' : Pool} {b : GetStmt} (h : GetOk p b) (hnum : ∀ k, p.pktNum k ≤ p'.pktNum k)
    (hhead : p'.pktHead = p.pktHead) : GetOk p' b := by
  cases b with
  | decrement k =>
      have := hnum k
      have hlt : 1 < p.pktNum k := h
      show 1 < p'.pktNum k
      omega
  | unlink k m =>
      show m = p'.pktHead k
      rw [hhead]
      exact h
  | _ => trivial

/-- What the refill thread knows stays true while the counter only falls and links are only cleared. -/
theorem RefillOk.mono {p p' : Pool} {b : RefillStmt} (h : RefillOk p b)
    (hnum : ∀ k, p'.pktNum k ≤ p.pktNum k) (hcap : p'.capacity = p.capacity)
    (hnext : ∀ m, p.nextpkt m = none → p'.nextpkt m = none) : RefillOk p' b := by
  have hlt : ∀ k, p.pktNum k < p.capacity k → p'.pktNum k < p'.capacity k := by
    intro k hk
    have := hnum k
    rw [hcap]
    omega
  cases b with
  | alloc k => exact hlt k h
  | setTail k m => exact hlt k h
  | increment k => exact hlt k h
  | link k m => exact ⟨hlt k h.1, hnext m h.2⟩
  | _ => trivial

/-! ### The consumer -/

/-- A statement of the consumer that moves no packet and changes no counter. -/
theorem PoolInv.consumerQuiet (h : PoolInv s linked) {c : Option GetStmt} (scheduled : Bool)
    (htaking : ∀ k, c.elim 0 (GetStmt.taking k) = s.taking k)
    (hheld : c.elim [] GetStmt.held = s.heldByConsumer) (hok : ∀ b ∈ c, GetOk s.pool b) :
    PoolInv ⟨{ s.pool with refillScheduled := scheduled }, c, s.refill⟩ linked where
  path := h.path
  tail := h.tail
  count k := by
    have hcount := h.count k
    rw [← htaking k] at hcount
    exact hcount
  num_pos := h.num_pos
  num_le := h.num_le
  capacity_lt := h.capacity_lt
  get_ok b hb := (hok b hb).mono (fun _ => Int.le_refl _) rfl
  refill_ok b hb := (h.refill_ok b hb).mono (fun _ => Int.le_refl _) rfl fun _ hm => hm
  owned := by
    have howned := h.owned
    rw [Sys.packets, ← hheld] at howned
    exact howned
  fresh := h.fresh

/-- A successful allocation gives a packet that is nowhere else, a failed one nothing. -/
theorem PoolInv.get_alloc (h : PoolInv s linked) {size : ℕ} (hc : s.consumer = some (.alloc size)) :
    PoolInv ⟨(getEval s.pool (.alloc size)).1, (getEval s.pool (.alloc size)).2, s.refill⟩ linked := by
  have hheld : s.heldByConsumer = [] := Sys.heldByConsumer_some hc
  have htaking : ∀ k, s.taking k = 0 := Sys.taking_some hc
  have hcount : ∀ k, ((linked k).length : ℤ) = s.pool.pktNum k + (0 : ℕ) + s.uncounted k := by
    intro k
    rw [h.count k, htaking k]
  have hfresh : ∀ x, s.pool.calls + 1 ≤ x → s.pool.nextpkt x = none :=
    fun x hx => h.fresh x (Nat.le_of_succ_le hx)
  cases hok : s.pool.allocs s.pool.calls with
  | false =>
      simp only [getEval, Pool.allocpacket, hok, if_false, Bool.false_eq_true]
      refine ⟨h.path, h.tail, hcount, h.num_pos, h.num_le, h.capacity_lt, by simp [GetOk], h.refill_ok, ?_,
        hfresh⟩
      have howned := h.owned
      rw [Sys.packets, hheld] at howned
      exact howned.mono (Nat.le_succ _)
  | true =>
      simp only [getEval, Pool.allocpacket, hok, if_true]
      refine ⟨h.path, h.tail, hcount, h.num_pos, h.num_le, h.capacity_lt, by simp [GetOk], h.refill_ok, ?_,
        hfresh⟩
      refine h.owned.create (List.perm_iff_count.mpr fun x => ?_)
      rw [List.count_cons, Sys.count_packets, Sys.count_packets, hheld]
      simp only [Sys.heldByConsumer, Option.elim, GetStmt.held, Option.toList, List.count_cons,
        List.count_nil, Sys.heldByRefill]
      omega

/-- A property of every counter, after one of them is written. -/
theorem forall_setNum {p : Pool} {n : ℤ} {P : Kind → ℤ → Prop} (hk : P k n)
    (hother : ∀ k', k' ≠ k → P k' (p.pktNum k')) (k' : Kind) : P k' ((p.setNum k n).pktNum k') :=
  (Function.forall_update_iff p.pktNum P).mpr ⟨hk, hother⟩ k'

/-- A property of two fields of every list, after both are written for one of them. -/
theorem forall_update₂ {β γ : Type} {f : Kind → β} {g : Kind → γ} {b : β} {c : γ} {P : Kind → β → γ → Prop}
    (hk : P k b c) (hother : ∀ k', k' ≠ k → P k' (f k') (g k')) (k' : Kind) :
    P k' (Function.update f k b k') (Function.update g k c k') := by
  by_cases h : k' = k
  · subst h
    rw [Function.update_self, Function.update_self]
    exact hk
  · rw [Function.update_of_ne h, Function.update_of_ne h]
    exact hother k' h

/-- How often a packet is in the two lists, after one of them is replaced. -/
theorem count_update (linked : Kind → List ℕ) (k : Kind) (l : List ℕ) (x : ℕ) :
    (Function.update linked k l .mbuf).count x + (Function.update linked k l .clust).count x +
      (linked k).count x = (linked .mbuf).count x + (linked .clust).count x + l.count x := by
  cases k with
  | mbuf =>
      rw [Function.update_self, Function.update_of_ne (by decide)]
      omega
  | clust =>
      rw [Function.update_self, Function.update_of_ne (by decide)]
      omega

/-- The packet is counted out. -/
theorem PoolInv.get_decrement (h : PoolInv s linked) (hc : s.consumer = some (.decrement k)) :
    PoolInv ⟨(getEval s.pool (.decrement k)).1, (getEval s.pool (.decrement k)).2, s.refill⟩ linked := by
  have hlt : 1 < s.pool.pktNum k := h.get_ok (.decrement k) hc
  have hle := h.num_le k
  have hcap := h.capacity_lt k
  have hnum : sint32 (s.pool.pktNum k - 1) = s.pool.pktNum k - 1 := sint32_eq (by omega) (by omega)
  have htaking : ∀ k', s.taking k' = 0 := Sys.taking_some hc
  simp only [getEval, hnum]
  refine ⟨h.path, h.tail, ?_, ?_, ?_, h.capacity_lt, by simp [GetOk], ?_, ?_, h.fresh⟩
  · refine forall_setNum (P := fun k' n => ((linked k').length : ℤ) =
      n + (if k = k' then 1 else 0 : ℕ) + s.uncounted k') ?_ ?_
    · rw [h.count k, htaking k, if_pos rfl]
      omega
    · intro k' hk'
      rw [h.count k', htaking k', if_neg (Ne.symm hk')]
  · exact forall_setNum (P := fun _ n => 1 ≤ n) (by omega) fun k' _ => h.num_pos k'
  · exact forall_setNum (P := fun k' n => n ≤ s.pool.capacity k') (by omega) fun k' _ => h.num_le k'
  · intro b hb
    refine (h.refill_ok b hb).mono ?_ rfl fun _ hm => hm
    exact forall_setNum (P := fun k' n => n ≤ s.pool.pktNum k') (by omega) fun k' _ => Int.le_refl _
  · have howned := h.owned
    rw [Sys.packets, Sys.heldByConsumer, hc] at howned
    exact howned

/-- **The packet is unlinked**: the head is not the tail, as two packets at least are linked. -/
theorem PoolInv.get_unlink (h : PoolInv s linked) {m : Option ℕ} (hc : s.consumer = some (.unlink k m)) :
    ∃ linked', PoolInv ⟨(getEval s.pool (.unlink k m)).1, (getEval s.pool (.unlink k m)).2, s.refill⟩
      linked' := by
  have hm : m = s.pool.pktHead k := h.get_ok (.unlink k m) hc
  have hcount := h.count k
  have hpos := h.num_pos k
  have htaking : ∀ k', s.taking k' = if k = k' then 1 else 0 := Sys.taking_some hc
  obtain ⟨x, rest, hx⟩ := List.exists_cons_of_ne_nil (h.linked_ne_nil k)
  have hpath := h.path k
  rw [hx, List.cons_append] at hpath
  obtain ⟨hhead, hpath⟩ := hpath
  have hrest : rest ≠ [] := by
    rintro rfl
    rw [hx, htaking k, if_pos rfl, List.length_singleton] at hcount
    omega
  have hnext : (s.pool.pktHead k).bind s.pool.nextpkt = s.pool.nextpkt x := by
    rw [hhead]
    rfl
  refine ⟨Function.update linked k rest, ?_⟩
  simp only [getEval, hm, hhead, Option.bind_some]
  refine ⟨?_, ?_, ?_, h.num_pos, h.num_le, h.capacity_lt, by simp [GetOk], ?_, ?_, h.fresh⟩
  · exact forall_update₂ (P := fun k' head l => Path s.pool.nextpkt head (l ++ s.extra k')) hpath
      fun k' _ => h.path k'
  · refine (Function.forall_update_iff linked fun k' l => s.pool.pktTail k' = l.getLast?).mpr
      ⟨?_, fun k' _ => h.tail k'⟩
    rw [h.tail k, hx, List.getLast?_cons_of_ne_nil hrest]
  · refine (Function.forall_update_iff linked fun k' l => (l.length : ℤ) =
      s.pool.pktNum k' + (0 : ℕ) + s.uncounted k').mpr ⟨?_, ?_⟩
    · rw [hx, htaking k, if_pos rfl, List.length_cons] at hcount
      omega
    · intro k' hk'
      rw [h.count k', htaking k', if_neg (Ne.symm hk')]
  · exact fun b hb => (h.refill_ok b hb).mono (fun _ => Int.le_refl _) rfl fun _ hm => hm
  · refine h.owned.perm (List.perm_iff_count.mpr fun y => ?_)
    have hheld : s.heldByConsumer = [] := Sys.heldByConsumer_some hc
    have hlists := count_update linked k rest y
    rw [hx, List.count_cons] at hlists
    rw [Sys.count_packets, Sys.count_packets, hheld]
    simp only [Sys.heldByConsumer, Sys.heldByRefill, Option.elim, GetStmt.held, Option.toList, Pool.setHead,
      List.count_cons, List.count_nil]
    omega

/-- Its link is cleared. -/
theorem PoolInv.get_clearNext (h : PoolInv s linked) {m : Option ℕ}
    (hc : s.consumer = some (.clearNext k m)) :
    PoolInv ⟨(getEval s.pool (.clearNext k m)).1, (getEval s.pool (.clearNext k m)).2, s.refill⟩ linked := by
  have hheld : s.heldByConsumer = m.toList := Sys.heldByConsumer_some hc
  cases m with
  | none =>
      refine h.consumerQuiet s.pool.refillScheduled (fun k' => (Sys.taking_some hc k').symm) hheld.symm ?_
      rintro b ⟨⟩
      trivial
  | some x =>
      have hnot : ∀ k', x ∉ linked k' ++ s.extra k' := h.notMem_list (Or.inl (by rw [hheld]; simp))
      have hnull : ∀ y, s.pool.nextpkt y = none → Function.update s.pool.nextpkt x none y = none := by
        intro y hy
        by_cases hyx : y = x
        · rw [hyx, Function.update_self]
        · rw [Function.update_of_ne hyx, hy]
      refine ⟨fun k' => (h.path k').update_of_notMem (hnot k') none, h.tail, ?_, h.num_pos, h.num_le,
        h.capacity_lt, ?_, ?_, ?_, fun y hy => hnull y (h.fresh y hy)⟩
      · intro k'
        have hcount := h.count k'
        rw [Sys.taking, hc] at hcount
        exact hcount
      · rintro b ⟨⟩
        trivial
      · exact fun b hb => (h.refill_ok b hb).mono (fun _ => Int.le_refl _) rfl hnull
      · have howned := h.owned
        rw [Sys.packets, hheld] at howned
        exact howned

/-- The packet is handed out. -/
theorem PoolInv.get_ret (h : PoolInv s linked) {m : Option ℕ} (hc : s.consumer = some (.ret m)) :
    PoolInv ⟨(getEval s.pool (.ret m)).1, (getEval s.pool (.ret m)).2, s.refill⟩ linked := by
  have hheld : s.heldByConsumer = m.toList := Sys.heldByConsumer_some hc
  refine ⟨h.path, h.tail, ?_, h.num_pos, h.num_le, h.capacity_lt, by simp [getEval], h.refill_ok, ?_, h.fresh⟩
  · intro k'
    have hcount := h.count k'
    rw [Sys.taking, hc] at hcount
    exact hcount
  · refine h.owned.perm (List.perm_iff_count.mpr fun y => ?_)
    rw [Sys.count_packets, Sys.count_packets, hheld]
    simp only [getEval, Sys.heldByConsumer, Sys.heldByRefill, Option.elim, List.count_nil, List.count_append]
    omega

/-- **Every statement of `getPacket`** keeps the invariant. -/
theorem PoolInv.runConsumer (h : PoolInv s linked) : ∃ linked', PoolInv (poolStep s .runConsumer) linked' := by
  cases hc : s.consumer with
  | none =>
      rw [poolStep, hc]
      exact ⟨linked, h⟩
  | some b =>
      have hheld := Sys.heldByConsumer_some hc
      have htaking := Sys.taking_some hc
      simp only [poolStep, hc]
      cases b with
      | alloc size => exact ⟨linked, h.get_alloc hc⟩
      | test k =>
          refine ⟨linked, h.consumerQuiet s.pool.refillScheduled (fun k' => ?_) ?_ ?_⟩
          · rw [htaking k', getEval]
            split <;> rfl
          · rw [hheld, getEval]
            split <;> rfl
          · rw [getEval]
            rintro b ⟨⟩
            split
            case isTrue hlt => exact hlt
            case isFalse => trivial
      | decrement k => exact ⟨linked, h.get_decrement hc⟩
      | takeHead k =>
          refine ⟨linked, h.consumerQuiet s.pool.refillScheduled (fun k' => (htaking k').symm) hheld.symm ?_⟩
          rintro b ⟨⟩
          exact rfl
      | unlink k m => exact h.get_unlink hc
      | clearNext k m => exact ⟨linked, h.get_clearNext hc⟩
      | testRefill k m =>
          refine ⟨linked, h.consumerQuiet s.pool.refillScheduled (fun k' => ?_) ?_ ?_⟩
          · rw [htaking k', getEval]
            split <;> rfl
          · rw [hheld, getEval]
            split <;> rfl
          · rw [getEval]
            rintro b ⟨⟩
            split <;> trivial
      | schedule m =>
          refine ⟨linked, h.consumerQuiet true (fun k' => (htaking k').symm) hheld.symm ?_⟩
          rintro b ⟨⟩
          trivial
      | ret m => exact ⟨linked, h.get_ret hc⟩

/-! ### The refill thread -/

/-- A statement of the refill thread that moves no packet and changes no counter. -/
theorem PoolInv.refillQuiet (h : PoolInv s linked) {r : Option RefillStmt} (scheduled : Bool)
    (hextra : ∀ k, r.elim [] (RefillStmt.extra k) = s.extra k)
    (huncounted : ∀ k, r.elim 0 (RefillStmt.uncounted k) = s.uncounted k)
    (hheld : r.elim [] RefillStmt.held = s.heldByRefill) (hok : ∀ b ∈ r, RefillOk s.pool b) :
    PoolInv ⟨{ s.pool with refillScheduled := scheduled }, s.consumer, r⟩ linked where
  path k := by
    have hpath := h.path k
    rw [← hextra k] at hpath
    exact hpath
  tail := h.tail
  count k := by
    have hcount := h.count k
    rw [← huncounted k] at hcount
    exact hcount
  num_pos := h.num_pos
  num_le := h.num_le
  capacity_lt := h.capacity_lt
  get_ok b hb := (h.get_ok b hb).mono (fun _ => Int.le_refl _) rfl
  refill_ok b hb := (hok b hb).mono (fun _ => Int.le_refl _) rfl fun _ hm => hm
  owned := by
    have howned := h.owned
    rw [Sys.packets, ← hheld] at howned
    exact howned
  fresh := h.fresh

/-- The loop goes on while the counter is below the capacity. -/
theorem PoolInv.refill_test (h : PoolInv s linked) (hr : s.refill = some (.test k)) :
    PoolInv ⟨(refillEval s.pool (.test k)).1, s.consumer, (refillEval s.pool (.test k)).2⟩ linked := by
  have hpos := h.num_pos k
  have hle := h.num_le k
  have hcap := h.capacity_lt k
  have hnum : (uint32 (s.pool.pktNum k) : ℤ) = s.pool.pktNum k := uint32_eq (by omega) (by omega)
  -- whatever the next statement is, it holds no packet
  have hnext : ∀ b ∈ (refillEval s.pool (.test k)).2, (∀ k', b.extra k' = []) ∧
      (∀ k', b.uncounted k' = 0) ∧ b.held = [] ∧ RefillOk s.pool b := by
    rw [refillEval]
    rintro b ⟨⟩
    split
    case isTrue hlt => exact ⟨fun _ => rfl, fun _ => rfl, rfl, show s.pool.pktNum k < _ by omega⟩
    case isFalse =>
      cases k with
      | mbuf => exact ⟨fun _ => rfl, fun _ => rfl, rfl, trivial⟩
      | clust => exact ⟨fun _ => rfl, fun _ => rfl, rfl, trivial⟩
  obtain ⟨hextra, huncounted, hheld, hok⟩ := hnext _ rfl
  refine h.refillQuiet s.pool.refillScheduled (fun k' => ?_) (fun k' => ?_) ?_ ?_
  · rw [Sys.extra_some hr]
    exact hextra k'
  · rw [Sys.uncounted_some hr]
    exact huncounted k'
  · rw [Sys.heldByRefill_some hr]
    exact hheld
  · rintro b ⟨⟩
    exact hok

theorem PoolInv.refill_alloc (h : PoolInv s linked) (hr : s.refill = some (.alloc k)) :
    PoolInv ⟨(refillEval s.pool (.alloc k)).1, s.consumer, (refillEval s.pool (.alloc k)).2⟩ linked := by
  have hlt : s.pool.pktNum k < s.pool.capacity k := h.refill_ok (.alloc k) hr
  have hheld : s.heldByRefill = [] := Sys.heldByRefill_some hr
  have hpath : ∀ k', Path s.pool.nextpkt (s.pool.pktHead k') (linked k' ++ []) := by
    intro k'
    have hpath := h.path k'
    rw [Sys.extra, hr] at hpath
    exact hpath
  have hcount : ∀ k', ((linked k').length : ℤ) = s.pool.pktNum k' + s.taking k' + (0 : ℕ) := by
    intro k'
    have hcount := h.count k'
    rw [Sys.uncounted, hr] at hcount
    exact hcount
  have hfresh : ∀ x, s.pool.calls + 1 ≤ x → s.pool.nextpkt x = none :=
    fun x hx => h.fresh x (Nat.le_of_succ_le hx)
  cases hok : s.pool.allocs s.pool.calls with
  | false =>
      simp only [refillEval, Pool.allocpacket, hok, if_false, Bool.false_eq_true]
      refine ⟨hpath, h.tail, hcount, h.num_pos, h.num_le, h.capacity_lt, h.get_ok, ?_, ?_, hfresh⟩
      · rintro b ⟨⟩
        trivial
      · have howned := h.owned
        rw [Sys.packets, hheld] at howned
        exact howned.mono (Nat.le_succ _)
  | true =>
      simp only [refillEval, Pool.allocpacket, hok, if_true]
      refine ⟨hpath, h.tail, hcount, h.num_pos, h.num_le, h.capacity_lt, h.get_ok, ?_, ?_, hfresh⟩
      · rintro b ⟨⟩
        exact ⟨hlt, h.fresh _ (Nat.le_refl _)⟩
      · refine h.owned.create (List.perm_iff_count.mpr fun x => ?_)
        rw [List.count_cons, Sys.count_packets, Sys.count_packets, hheld]
        simp only [Sys.heldByConsumer, Sys.heldByRefill, Option.elim, RefillStmt.held, List.count_cons,
          List.count_nil]
        omega

/-- **The packet is linked** behind the tail. -/
theorem PoolInv.refill_link (h : PoolInv s linked) (hr : s.refill = some (.link k m)) :
    PoolInv ⟨(refillEval s.pool (.link k m)).1, s.consumer, (refillEval s.pool (.link k m)).2⟩ linked := by
  obtain ⟨hlt, hnull⟩ : s.pool.pktNum k < s.pool.capacity k ∧ s.pool.nextpkt m = none :=
    h.refill_ok (.link k m) hr
  obtain ⟨l, t, hl⟩ : ∃ l t, linked k = l ++ [t] :=
    ⟨_, _, (List.dropLast_append_getLast (h.linked_ne_nil k)).symm⟩
  have htail : s.pool.pktTail k = some t := by
    rw [h.tail k, hl, List.getLast?_concat]
  have hheld : s.heldByRefill = [m] := Sys.heldByRefill_some hr
  have hextra : ∀ k', s.extra k' = [] := Sys.extra_some hr
  obtain ⟨hone, hother, hnot, htlt⟩ := h.linked_once (show t ∈ linked k by rw [hl]; simp)
  rw [hheld, List.mem_singleton] at hnot
  simp only [refillEval, htail, Pool.setnextpkt]
  refine ⟨?_, h.tail, ?_, h.num_pos, h.num_le, h.capacity_lt, ?_, ?_, ?_, ?_⟩
  · intro k'
    have hpath := h.path k'
    rw [hextra k', List.append_nil] at hpath
    show Path (Function.update s.pool.nextpkt t (some m)) (s.pool.pktHead k')
      (linked k' ++ if k = k' then [m] else [])
    by_cases hk : k = k'
    · subst hk
      rw [hl, List.count_append, List.count_singleton_self] at hone
      rw [hl] at hpath
      rw [if_pos rfl, hl, List.append_assoc]
      exact hpath.snoc (List.count_eq_zero.mp (by omega)) (Ne.symm hnot) hnull
    · rw [if_neg hk, List.append_nil]
      exact hpath.update_of_notMem (hother k' (Ne.symm hk)) _
  · intro k'
    have hcount := h.count k'
    rw [Sys.uncounted, hr] at hcount
    exact hcount
  · exact fun b hb => (h.get_ok b hb).mono (fun _ => Int.le_refl _) rfl
  · rintro b ⟨⟩
    exact hlt
  · have howned := h.owned
    rw [Sys.packets, hheld] at howned
    exact howned
  · intro x hx
    show Function.update s.pool.nextpkt t (some m) x = none
    rw [Function.update_of_ne (Nat.ne_of_gt (Nat.lt_of_lt_of_le htlt hx))]
    exact h.fresh x hx

/-- The packet becomes the tail. -/
theorem PoolInv.refill_setTail (h : PoolInv s linked) (hr : s.refill = some (.setTail k m)) :
    PoolInv ⟨(refillEval s.pool (.setTail k m)).1, s.consumer, (refillEval s.pool (.setTail k m)).2⟩
      (Function.update linked k (linked k ++ [m])) := by
  have hlt : s.pool.pktNum k < s.pool.capacity k := h.refill_ok (.setTail k m) hr
  have hheld : s.heldByRefill = [m] := Sys.heldByRefill_some hr
  have hextra : ∀ k', s.extra k' = if k = k' then [m] else [] := Sys.extra_some hr
  have huncounted : ∀ k', s.uncounted k' = 0 := Sys.uncounted_some hr
  refine ⟨?_, ?_, ?_, h.num_pos, h.num_le, h.capacity_lt, ?_, ?_, ?_, h.fresh⟩
  · refine (Function.forall_update_iff linked fun k' l =>
      Path s.pool.nextpkt (s.pool.pktHead k') (l ++ [])).mpr ⟨?_, fun k' hk' => ?_⟩
    · have hpath := h.path k
      rw [hextra k, if_pos rfl] at hpath
      rwa [List.append_nil]
    · have hpath := h.path k'
      rwa [hextra k', if_neg (Ne.symm hk')] at hpath
  · exact forall_update₂ (P := fun _ t l => t = List.getLast? l) List.getLast?_concat.symm
      fun k' _ => h.tail k'
  · refine (Function.forall_update_iff linked fun k' l => (l.length : ℤ) =
      s.pool.pktNum k' + s.taking k' + (if k = k' then 1 else 0 : ℕ)).mpr ⟨?_, fun k' hk' => ?_⟩
    · have hcount := h.count k
      rw [huncounted k] at hcount
      rw [List.length_append, List.length_singleton, if_pos rfl]
      omega
    · rw [h.count k', huncounted k', if_neg (Ne.symm hk')]
  · exact fun b hb => (h.get_ok b hb).mono (fun _ => Int.le_refl _) rfl
  · rintro b ⟨⟩
    exact hlt
  · refine h.owned.perm (List.perm_iff_count.mpr fun y => ?_)
    rw [Sys.count_packets, Sys.count_packets, hheld]
    have hlists := count_update linked k (linked k ++ [m]) y
    rw [List.count_append] at hlists
    simp only [refillEval, Pool.setTail, Sys.heldByConsumer, Sys.heldByRefill, Option.elim, RefillStmt.held,
      List.count_nil]
    omega

/-- The packet is counted. -/
theorem PoolInv.refill_increment (h : PoolInv s linked) (hr : s.refill = some (.increment k)) :
    PoolInv ⟨(refillEval s.pool (.increment k)).1, s.consumer, (refillEval s.pool (.increment k)).2⟩
      linked := by
  have hlt : s.pool.pktNum k < s.pool.capacity k := h.refill_ok (.increment k) hr
  have hpos := h.num_pos k
  have hcap := h.capacity_lt k
  have hnum : sint32 (s.pool.pktNum k + 1) = s.pool.pktNum k + 1 := sint32_eq (by omega) (by omega)
  have huncounted : ∀ k', s.uncounted k' = if k = k' then 1 else 0 := Sys.uncounted_some hr
  simp only [refillEval, hnum]
  refine ⟨?_, h.tail, ?_, ?_, ?_, h.capacity_lt, ?_, ?_, ?_, h.fresh⟩
  · intro k'
    have hpath := h.path k'
    rw [Sys.extra, hr] at hpath
    exact hpath
  · refine forall_setNum (P := fun k' n => ((linked k').length : ℤ) = n + s.taking k' + (0 : ℕ)) ?_ ?_
    · rw [h.count k, huncounted k, if_pos rfl]
      omega
    · intro k' hk'
      rw [h.count k', huncounted k', if_neg (Ne.symm hk')]
  · exact forall_setNum (P := fun _ n => 1 ≤ n) (by omega) fun k' _ => h.num_pos k'
  · exact forall_setNum (P := fun k' n => n ≤ s.pool.capacity k') (by omega) fun k' _ => h.num_le k'
  · intro b hb
    refine (h.get_ok b hb).mono ?_ rfl
    exact forall_setNum (P := fun k' n => s.pool.pktNum k' ≤ n) (by omega) fun k' _ => Int.le_refl _
  · rintro b ⟨⟩
    trivial
  · have howned := h.owned
    rw [Sys.packets, Sys.heldByRefill, hr] at howned
    exact howned

/-- **Every statement of `refillPool`** keeps the invariant. -/
theorem PoolInv.runRefill (h : PoolInv s linked) : ∃ linked', PoolInv (poolStep s .runRefill) linked' := by
  cases hr : s.refill with
  | none =>
      rw [poolStep, hr]
      exact ⟨linked, h⟩
  | some b =>
      simp only [poolStep, hr]
      cases b with
      | test k => exact ⟨linked, h.refill_test hr⟩
      | alloc k => exact ⟨linked, h.refill_alloc hr⟩
      | link k m => exact ⟨linked, h.refill_link hr⟩
      | setTail k m => exact ⟨_, h.refill_setTail hr⟩
      | increment k => exact ⟨linked, h.refill_increment hr⟩
      | done =>
          exact ⟨linked, h.refillQuiet false (fun k => (Sys.extra_some hr k).symm)
            (fun k => (Sys.uncounted_some hr k).symm) (Sys.heldByRefill_some hr).symm nofun⟩

/-- **Every step** keeps the invariant. -/
theorem PoolInv.step (h : PoolInv s linked) (mv : Move) : ∃ linked', PoolInv (poolStep s mv) linked' := by
  cases mv with
  | getPacket size =>
      rw [poolStep]
      split
      case isFalse => exact ⟨linked, h⟩
      case isTrue hc =>
        refine ⟨linked, h.consumerQuiet s.pool.refillScheduled (fun k => ?_) ?_ ?_⟩
        · rw [Sys.taking, hc]
          rfl
        · rw [Sys.heldByConsumer, hc]
          rfl
        · rintro b ⟨⟩
          trivial
  | runConsumer => exact h.runConsumer
  | refillPool =>
      rw [poolStep]
      split
      case isFalse => exact ⟨linked, h⟩
      case isTrue hr =>
        refine ⟨linked, h.refillQuiet s.pool.refillScheduled (fun k => ?_) (fun k => ?_) ?_ ?_⟩
        · rw [Sys.extra, hr]
          rfl
        · rw [Sys.uncounted, hr]
          rfl
        · rw [Sys.heldByRefill, hr]
          rfl
        · rintro b ⟨⟩
          trivial
  | runRefill => exact h.runRefill

end Rtl812x.Kext.RxPool
