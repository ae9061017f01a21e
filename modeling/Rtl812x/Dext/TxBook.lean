import Mathlib.Algebra.Ring.Int.Defs
import Rtl812x.Lib.Tagged
import Rtl812x.Dext.TxAccounting

/-!
# What the transmit side is for: a book of packets

`TxBook` is the transmit side without its representation: the packets in flight, oldest first, and
the completed packets with the queue they go back to.  A submission enters a packet at the end of
the first list, a reclaim moves the oldest one to the second, a collection removes one.

* `TxRefines s b` — the slots, the FIFOs and the byte counter of `s` represent the book `b`;
* `TxRefines.txPlace`, `TxRefines.txReject`, `TxRefines.txRetireLoop`, `TxRefines.popped_cons` — **each
  operation of the driver is the operation of the book**, as long as no FIFO is full;
* `accepted` — the packets taken over and not yet returned, read off the record of the calls.
-/

namespace Rtl812x.Dext

open Circular Tagged

/-- A packet in flight. -/
structure TxEntry where
  pkt : ℕ
  queue : ℕ
  len : ℕ
deriving DecidableEq, Repr

/-- The packets the driver has: in flight, and completed with their queue. -/
structure TxBook where
  ring : List TxEntry
  done : List (ℕ × ℕ)

namespace TxBook

/-- Every packet on the book, with its queue. -/
def owned (b : TxBook) : List (ℕ × ℕ) := b.ring.map (fun e => (e.pkt, e.queue)) ++ b.done

def place (e : TxEntry) (b : TxBook) : TxBook := { b with ring := b.ring ++ [e] }

def complete (p q : ℕ) (b : TxBook) : TxBook := { b with done := b.done ++ [(p, q)] }

/-- The oldest `n` packets in flight are completed. -/
def retire (n : ℕ) (b : TxBook) : TxBook where
  ring := b.ring.drop n
  done := b.done ++ (b.ring.take n).map fun e => (e.pkt, e.queue)

theorem owned_place (e : TxEntry) (b : TxBook) :
    (b.place e).owned.Perm ((e.pkt, e.queue) :: b.owned) := by
  simp only [owned, place, List.map_append, List.map_cons, List.map_nil, List.append_assoc]
  exact List.perm_middle

theorem owned_complete (p q : ℕ) (b : TxBook) :
    (b.complete p q).owned.Perm ((p, q) :: b.owned) := by
  simp only [owned, complete, ← List.append_assoc]
  exact List.perm_append_singleton _ _

theorem owned_retire (n : ℕ) (b : TxBook) : (b.retire n).owned.Perm b.owned := by
  simp only [owned, retire]
  conv_rhs => rw [← List.take_append_drop n b.ring, List.map_append, List.append_assoc]
  rw [← List.append_assoc]
  exact List.perm_append_comm

end TxBook

/-! ### The representation -/

/-- What a ring slot holds. -/
def TxSide.cell (s : TxSide) (i : ℕ) : Option ℕ × ℕ × ℕ := (s.txPkt i, s.txPktQueue i, s.txPktLen i)

def TxEntry.cell (e : TxEntry) : Option ℕ × ℕ × ℕ := (some e.pkt, e.queue, e.len)

/-- The transmit side represents a book. -/
structure TxRefines (s : TxSide) (b : TxBook) : Prop where
  dirty_lt : s.hw.txDirtyDescIndex < kNumTxDesc
  ring_le : b.ring.length ≤ kNumTxDesc
  ring_eq : window kNumTxDesc s.hw.txDirtyDescIndex b.ring.length s.cell = b.ring.map TxEntry.cell
  outside : ∀ i, ¬ InWindow kNumTxDesc s.hw.txDirtyDescIndex b.ring.length i → s.txPkt i = none
  done_eq : ∀ q, Holds (s.txDoneFifo q) (queueOf b.done q)
  bytes_eq : s.txInflightBytes = (b.ring.map fun e => (e.len : ℤ)).sum
  queue_lt : ∀ x ∈ b.owned, x.2 < kNumTxQueues

variable {s : TxSide} {b : TxBook}

theorem TxRefines.init : TxRefines TxSide.init ⟨[], []⟩ where
  dirty_lt := kNumTxDesc_pos
  ring_le := Nat.zero_le _
  ring_eq := rfl
  outside _ _ := rfl
  done_eq _ := holds_empty
  bytes_eq := rfl
  queue_lt := by simp [TxBook.owned]

/-- Only the slots, the FIFOs, the byte counter and the dirty index represent the book. -/
theorem TxRefines.congr {s' : TxSide} (h : TxRefines s b)
    (hdirty : s'.hw.txDirtyDescIndex = s.hw.txDirtyDescIndex) (hcell : s'.cell = s.cell)
    (hdone : s'.txDoneFifo = s.txDoneFifo) (hbytes : s'.txInflightBytes = s.txInflightBytes) :
    TxRefines s' b where
  dirty_lt := by rw [hdirty]; exact h.dirty_lt
  ring_le := h.ring_le
  ring_eq := by rw [hdirty, hcell]; exact h.ring_eq
  outside i hi := by
    have hpkt : s'.txPkt i = s.txPkt i := congrArg Prod.fst (congrFun hcell i)
    rw [hdirty] at hi
    rw [hpkt]
    exact h.outside i hi
  done_eq := by rw [hdone]; exact h.done_eq
  bytes_eq := by rw [hbytes]; exact h.bytes_eq
  queue_lt := h.queue_lt

/-! ### Completing, rejecting and placing a packet -/

/-- The FIFO of a queue has room as long as few packets are completed. -/
theorem TxRefines.push (h : TxRefines s b) (hroom : b.done.length < kFifoMask) (q p : ℕ) :
    (fifoPush (s.txDoneFifo q) p).1 = true ∧
      Holds (fifoPush (s.txDoneFifo q) p).2 (queueOf b.done q ++ [p]) :=
  fifoPush_holds (h.done_eq q) (lt_of_le_of_lt (length_queueOf_le _ _) hroom) p

/-- **Completing a packet** puts it on the book's second list. -/
theorem TxRefines.txComplete (h : TxRefines s b) (hroom : b.done.length < kFifoMask) {q p : ℕ}
    (hq : q < kNumTxQueues) (status : IOReturn) :
    TxRefines (txComplete q p status s) (b.complete p q) ∧
      (txComplete q p status s).trace = .push q p :: s.trace := by
  obtain ⟨hok, hholds⟩ := h.push hroom q p
  refine ⟨⟨h.dirty_lt, h.ring_le, h.ring_eq, h.outside, ?_, h.bytes_eq, ?_⟩, ?_⟩
  · intro q'
    show Holds (Function.update s.txDoneFifo q (fifoPush (s.txDoneFifo q) p).2 q')
      (queueOf (b.done ++ [(p, q)]) q')
    by_cases hqq : q = q'
    · subst hqq
      rw [Function.update_self, queueOf_snoc_self]
      exact hholds
    · rw [Function.update_of_ne (Ne.symm hqq), queueOf_snoc_of_ne hqq]
      exact h.done_eq q'
  · intro x hx
    rcases List.mem_cons.mp ((b.owned_complete p q).mem_iff.mp hx) with rfl | hx
    · exact hq
    · exact h.queue_lt x hx
  · simp only [Dext.txComplete, hok, if_true]

theorem TxRefines.txReject (h : TxRefines s b) (hroom : b.done.length < kFifoMask) {q : ℕ}
    (hq : q < kNumTxQueues) (pkt : TxPacket) :
    TxRefines (txReject q pkt s) (b.complete pkt.id q) ∧
      (txReject q pkt s).trace = .push q pkt.id :: .reject pkt.id q :: s.trace := by
  have hrec : TxRefines { s with trace := .reject pkt.id q :: s.trace } b :=
    h.congr rfl rfl rfl rfl
  exact hrec.txComplete hroom hq .badArgument

theorem txPlace_dirty (q : ℕ) (pkt : TxPacket) (iova : ℕ) (s : TxSide) :
    (txPlace q pkt iova s).hw.txDirtyDescIndex = s.hw.txDirtyDescIndex := rfl

/-- **Placing a packet** puts it at the end of the book's first list. -/
theorem TxRefines.txPlace (h : TxRefines s b) (hlen : b.ring.length < kNumTxDesc)
    (hnext : s.hw.txNextDescIndex = slot kNumTxDesc s.hw.txDirtyDescIndex b.ring.length) {q : ℕ}
    (hq : q < kNumTxQueues) (pkt : TxPacket) (iova : ℕ) :
    TxRefines (txPlace q pkt iova s) (b.place ⟨pkt.id, q, pkt.dataLength⟩) := by
  have hcell : (Dext.txPlace q pkt iova s).cell
      = Function.update s.cell s.hw.txNextDescIndex (some pkt.id, q, pkt.dataLength) := by
    funext i
    by_cases hi : i = s.hw.txNextDescIndex
    · subst hi
      simp [TxSide.cell, Dext.txPlace]
    · simp [TxSide.cell, Dext.txPlace, hi]
  refine ⟨h.dirty_lt, ?_, ?_, ?_, h.done_eq, ?_, ?_⟩
  · simp only [TxBook.place, List.length_append, List.length_singleton]
    omega
  · show window kNumTxDesc s.hw.txDirtyDescIndex (b.ring ++ [_]).length _ = _
    simp only [TxBook.place, List.length_append, List.length_singleton, List.map_append,
      List.map_singleton]
    rw [hcell, hnext, window_update_next hlen, h.ring_eq]
    rfl
  · intro i hi
    simp only [TxBook.place, List.length_append, List.length_singleton, inWindow_snoc_iff,
      not_or, txPlace_dirty] at hi
    show Function.update s.txPkt s.hw.txNextDescIndex (some pkt.id) i = none
    rw [hnext, Function.update_of_ne (Ne.symm hi.2)]
    exact h.outside i hi.1
  · show s.txInflightBytes + pkt.dataLength = _
    rw [h.bytes_eq]
    simp [TxBook.place]
  · intro x hx
    rcases List.mem_cons.mp ((b.owned_place _).mem_iff.mp hx) with rfl | hx
    · exact hq
    · exact h.queue_lt x hx

/-! ### Retiring packets -/

/-- The oldest packet in flight is off the ring, its descriptor behind the dirty index. -/
def TxSide.dropOldest (s : TxSide) (len : ℕ) : TxSide :=
  { s with
    hw := { s.hw with txDirtyDescIndex := slot kNumTxDesc s.hw.txDirtyDescIndex 1 }
    txPkt := Function.update s.txPkt s.hw.txDirtyDescIndex none
    txInflightBytes := s.txInflightBytes - len }

theorem TxRefines.dropOldest {e : TxEntry} {rest : List TxEntry} {done : List (ℕ × ℕ)}
    (h : TxRefines s ⟨e :: rest, done⟩) : TxRefines (s.dropOldest e.len) ⟨rest, done⟩ := by
  have hle : rest.length < kNumTxDesc := h.ring_le
  have hout := first_not_inWindow h.dirty_lt hle
  have hring := h.ring_eq
  simp only [List.length_cons, window_cons h.dirty_lt, List.map_cons, List.cons.injEq] at hring
  refine ⟨slot_lt kNumTxDesc_pos _ _, hle.le, ?_, ?_, h.done_eq, ?_, ?_⟩
  · rw [← hring.2]
    apply window_congr
    intro k hk
    have hne : slot kNumTxDesc (slot kNumTxDesc s.hw.txDirtyDescIndex 1) k
        ≠ s.hw.txDirtyDescIndex := fun he => hout ⟨k, hk, he⟩
    simp only [TxSide.cell, TxSide.dropOldest, Function.update_of_ne hne]
  · intro i hi
    show Function.update s.txPkt s.hw.txDirtyDescIndex none i = none
    by_cases hid : i = s.hw.txDirtyDescIndex
    · rw [hid, Function.update_self]
    · rw [Function.update_of_ne hid]
      apply h.outside
      rw [List.length_cons, inWindow_succ_iff h.dirty_lt, not_or]
      exact ⟨Ne.symm hid, hi⟩
  · show s.txInflightBytes - e.len = _
    rw [h.bytes_eq]
    simp
  · intro x hx
    exact h.queue_lt x (List.mem_cons_of_mem _ hx)

/-- **Retiring a descriptor** completes the oldest packet to the queue it came from. -/
theorem TxRefines.txRetire {e : TxEntry} {rest : List TxEntry} {done : List (ℕ × ℕ)}
    (h : TxRefines s ⟨e :: rest, done⟩) (hroom : done.length < kFifoMask) (abort : Bool) :
    TxRefines (txRetire abort s) ⟨rest, done ++ [(e.pkt, e.queue)]⟩ ∧
      (txRetire abort s).trace
        = .retire s.hw.txDirtyDescIndex :: .push e.queue e.pkt :: s.trace := by
  have hring := h.ring_eq
  simp only [List.length_cons, window_cons h.dirty_lt, List.map_cons, List.cons.injEq] at hring
  obtain ⟨hcell, -⟩ := hring
  simp only [TxSide.cell, TxEntry.cell, Prod.mk.injEq] at hcell
  obtain ⟨hpkt, hqueue, hlen⟩ := hcell
  have hq : e.queue < kNumTxQueues := h.queue_lt (e.pkt, e.queue) (List.mem_cons_self ..)
  have hretire : Dext.txRetire abort s
      = let s' := Dext.txComplete e.queue e.pkt (if abort then .aborted else .success)
          (s.dropOldest e.len)
        { s' with trace := .retire s.hw.txDirtyDescIndex :: s'.trace } := by
    simp only [Dext.txRetire, txRelease, hpkt, hqueue, hlen, hq, if_true, succ_and_kTxDescMask]
    rfl
  obtain ⟨href, htrace⟩ := h.dropOldest.txComplete hroom hq (if abort then .aborted else .success)
  rw [hretire]
  refine ⟨href.congr rfl rfl rfl rfl, ?_⟩
  simp only [htrace]
  rfl

/-- The record of retiring these entries from descriptor `dirty` on, newest event first. -/
def retireTrace (dirty : ℕ) : List TxEntry → List TxEvent
  | [] => []
  | e :: es =>
    retireTrace (slot kNumTxDesc dirty 1) es ++ [.retire dirty, .push e.queue e.pkt]

/-- **Retiring `n` descriptors** completes the `n` oldest packets. -/
theorem TxRefines.txRetireLoop {n : ℕ} (h : TxRefines s b) (hn : n ≤ b.ring.length)
    (hroom : b.owned.length ≤ kFifoMask) (abort : Bool) (didWork : ℕ → Bool) :
    TxRefines (txRetireLoop abort n didWork s).2 (b.retire n) ∧
      (txRetireLoop abort n didWork s).2.trace
        = retireTrace s.hw.txDirtyDescIndex (b.ring.take n) ++ s.trace := by
  induction n generalizing s b didWork with
  | zero =>
      refine ⟨?_, rfl⟩
      simpa [TxBook.retire, Dext.txRetireLoop] using h
  | succ n ih =>
      obtain ⟨ring, done⟩ := b
      cases ring with
      | nil => simp at hn
      | cons e rest =>
          have hlen : done.length < kFifoMask := by
            simp only [TxBook.owned, List.length_append, List.length_map, List.length_cons] at hroom
            omega
          obtain ⟨href, htrace⟩ := h.txRetire hlen abort
          have howned : (TxBook.mk rest (done ++ [(e.pkt, e.queue)])).owned.length ≤ kFifoMask := by
            simp only [TxBook.owned, List.length_append, List.length_map, List.length_cons,
              List.length_nil] at hroom ⊢
            omega
          obtain ⟨ih1, ih2⟩ := ih href (by simpa using hn) howned (txNoteWork didWork s)
          refine ⟨?_, ?_⟩
          · rw [Dext.txRetireLoop]
            simpa [TxBook.retire] using ih1
          · rw [Dext.txRetireLoop, ih2, htrace, txRetire_hw]
            simp [retireTrace]

/-! ### Collecting packets -/

/-- The state after one packet of a queue was taken from its FIFO. -/
def TxSide.popped (q : ℕ) (s : TxSide) : TxSide :=
  { s with txDoneFifo := Function.update s.txDoneFifo q (fifoPop (s.txDoneFifo q)).2 }

theorem TxRefines.popped_nil (h : TxRefines s b) {q : ℕ} (hq : queueOf b.done q = []) :
    (fifoPop (s.txDoneFifo q)).1 = none ∧ TxRefines (s.popped q) b := by
  have hholds := h.done_eq q
  rw [hq] at hholds
  have hpop := fifoPop_nil hholds
  refine ⟨by rw [hpop], h.congr rfl rfl ?_ rfl⟩
  show Function.update s.txDoneFifo q (fifoPop (s.txDoneFifo q)).2 = s.txDoneFifo
  rw [hpop, Function.update_eq_self]

/-- **Collecting a packet** takes the oldest of its queue off the book. -/
theorem TxRefines.popped_cons (h : TxRefines s b) {q p : ℕ} {r : List ℕ}
    (hq : queueOf b.done q = p :: r) :
    (fifoPop (s.txDoneFifo q)).1 = some p ∧
      ∃ b' : TxBook, TxRefines (s.popped q) b' ∧ b'.ring = b.ring ∧
        b.owned.Perm ((p, q) :: b'.owned) := by
  have hholds := h.done_eq q
  rw [hq] at hholds
  obtain ⟨hsome, hrest⟩ := fifoPop_cons hholds
  obtain ⟨done', hperm, hr, hother⟩ := queueOf_take hq
  have howned : b.owned.Perm ((p, q) :: (TxBook.mk b.ring done').owned) :=
    (hperm.append_left _).trans List.perm_middle
  refine ⟨hsome, ⟨b.ring, done'⟩, ⟨h.dirty_lt, h.ring_le, h.ring_eq, h.outside, ?_, h.bytes_eq, ?_⟩,
    rfl, howned⟩
  · intro q'
    show Holds (Function.update s.txDoneFifo q (fifoPop (s.txDoneFifo q)).2 q') (queueOf done' q')
    by_cases hqq : q = q'
    · subst hqq
      rw [Function.update_self, hr]
      exact hrest
    · rw [Function.update_of_ne (Ne.symm hqq), hother q' hqq]
      exact h.done_eq q'
  · intro x hx
    exact h.queue_lt x (howned.mem_iff.mpr (List.mem_cons_of_mem _ hx))

/-! ### Ring restarts -/

/-- An empty ring may restart at descriptor 0. -/
theorem TxRefines.restart {s' : TxSide} (h : TxRefines s b) (hring : b.ring = [])
    (hdirty : s'.hw.txDirtyDescIndex = 0) (hpkt : s'.txPkt = s.txPkt)
    (hdone : s'.txDoneFifo = s.txDoneFifo) (hbytes : s'.txInflightBytes = 0) :
    TxRefines s' b where
  dirty_lt := by rw [hdirty]; exact kNumTxDesc_pos
  ring_le := h.ring_le
  ring_eq := by rw [hring]; rfl
  outside i _ := by
    rw [hpkt]
    apply h.outside
    rw [hring]
    exact not_inWindow_zero
  done_eq := by rw [hdone]; exact h.done_eq
  bytes_eq := by rw [hbytes, hring]; rfl
  queue_lt := h.queue_lt

/-! ### The packets taken over -/

/-- The packets taken over from the framework and not yet returned, with their queue. -/
def accepted : List TxEvent → List (ℕ × ℕ)
  | [] => []
  | .place _ p q :: t => (p, q) :: accepted t
  | .reject p q :: t => (p, q) :: accepted t
  | .pop q p :: t => (accepted t).erase (p, q)
  | .dealloc p :: t => (accepted t).filter (·.1 ≠ p)
  | _ :: t => accepted t

/-- Nothing was dropped, and what was returned had been taken over and not returned before. -/
def ReturnedOnce : List TxEvent → Prop
  | [] => True
  | .pop q p :: t => (p, q) ∈ accepted t ∧ ReturnedOnce t
  | .dealloc _ :: _ => False
  | _ :: t => ReturnedOnce t

/-- The event does not change who has a packet. -/
def TxEvent.neutral : TxEvent → Bool
  | .place .. | .reject .. | .pop .. | .dealloc .. => false
  | _ => true

theorem accepted_append_of_neutral {es : List TxEvent} (hes : ∀ e ∈ es, e.neutral = true)
    (t : List TxEvent) :
    accepted (es ++ t) = accepted t ∧ (ReturnedOnce (es ++ t) ↔ ReturnedOnce t) := by
  induction es with
  | nil => exact ⟨rfl, Iff.rfl⟩
  | cons e es ih =>
      obtain ⟨iha, ihr⟩ := ih fun e' he' => hes e' (List.mem_cons_of_mem _ he')
      have he := hes e (List.mem_cons_self ..)
      cases e <;> first | exact ⟨iha, ihr⟩ | cases he

theorem retireTrace_neutral (dirty : ℕ) (es : List TxEntry) :
    ∀ e ∈ retireTrace dirty es, e.neutral = true := by
  induction es generalizing dirty with
  | nil => simp [retireTrace]
  | cons e es ih =>
      intro ev hev
      simp only [retireTrace, List.mem_append, List.mem_cons, List.not_mem_nil, or_false] at hev
      rcases hev with h | rfl | rfl
      · exact ih _ ev h
      · rfl
      · rfl

/-- The book and the record agree; the packets are distinct and come from the pool. -/
structure TxLedger (t : List TxEvent) (b : TxBook) : Prop where
  perm : b.owned.Perm (accepted t)
  nodup : (b.owned.map Prod.fst).Nodup
  pool : ∀ x ∈ b.owned, x.1 < kTxPoolPackets
  returned : ReturnedOnce t

variable {t : List TxEvent}

theorem TxLedger.init : TxLedger [] ⟨[], []⟩ where
  perm := .refl _
  nodup := List.nodup_nil
  pool := by simp [TxBook.owned]
  returned := trivial

/-- The pool bounds what the driver can have. -/
theorem TxLedger.length_le (h : TxLedger t b) : b.owned.length ≤ kTxPoolPackets := by
  have hsub : b.owned.map Prod.fst ⊆ List.range kTxPoolPackets := by
    intro p hp
    obtain ⟨x, hx, rfl⟩ := List.mem_map.mp hp
    exact List.mem_range.mpr (h.pool x hx)
  have hlen := (List.subperm_of_subset h.nodup hsub).length_le
  rwa [List.length_map, List.length_range] at hlen

theorem TxLedger.done_le (h : TxLedger t b) : b.done.length ≤ kTxPoolPackets := by
  have hle := h.length_le
  rw [TxBook.owned, List.length_append] at hle
  omega

/-- The same packets, whatever was recorded besides. -/
theorem TxLedger.of_neutral {b' : TxBook} (h : TxLedger t b) (hb : b'.owned.Perm b.owned)
    (es : List TxEvent) (hes : ∀ e ∈ es, e.neutral = true) : TxLedger (es ++ t) b' := by
  obtain ⟨hacc, hret⟩ := accepted_append_of_neutral hes t
  exact ⟨by rw [hacc]; exact hb.trans h.perm, (hb.map Prod.fst).nodup_iff.mpr h.nodup,
    fun x hx => h.pool x (hb.mem_iff.mp hx), hret.mpr h.returned⟩

/-- A packet the framework holds may be taken over. -/
theorem TxLedger.cons {b' : TxBook} {t' : List TxEvent} {p q : ℕ} (h : TxLedger t b)
    (hb : b'.owned.Perm ((p, q) :: b.owned)) (hp : p < kTxPoolPackets)
    (hfresh : p ∉ b.owned.map Prod.fst) (hacc : accepted t' = (p, q) :: accepted t)
    (hret : ReturnedOnce t') : TxLedger t' b' where
  perm := by rw [hacc]; exact hb.trans (h.perm.cons _)
  nodup := (hb.map Prod.fst).nodup_iff.mpr (List.nodup_cons.mpr ⟨hfresh, h.nodup⟩)
  pool x hx := by
    rcases List.mem_cons.mp (hb.mem_iff.mp hx) with rfl | hx
    · exact hp
    · exact h.pool x hx
  returned := hret

/-- A packet on the book may be returned. -/
theorem TxLedger.pop {b' : TxBook} {p q : ℕ} (h : TxLedger t b)
    (hb : b.owned.Perm ((p, q) :: b'.owned)) : TxLedger (.pop q p :: t) b' where
  perm := (List.cons_perm_iff_perm_erase.mp (hb.symm.trans h.perm)).2
  nodup := ((hb.map Prod.fst).nodup_iff.mp h.nodup).of_cons
  pool x hx := h.pool x (hb.mem_iff.mpr (List.mem_cons_of_mem _ hx))
  returned := ⟨h.perm.mem_iff.mp (hb.mem_iff.mpr (List.mem_cons_self ..)), h.returned⟩

end Rtl812x.Dext
