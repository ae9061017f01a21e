import Rtl812x.Lib.Trace
import Rtl812x.Dext.TxAccounting

/-!
# Announcing transmit completions

A packet pushed onto a completion FIFO is seen by the framework when it is asked to collect
(`requestEnqueue` on the queue of that FIFO).  Pushing and asking are separate steps:
`txRingReclaim` notes per queue whether it pushed and asks at its end; `txDequeueAction`, which
pushes the packets it rejects, does not ask.

* `TxAnnounced` — what a call did: every push has a later request on its queue;
* `txRingReclaim_announced` — a reclaim announces what it completes, from any state;
* `TxCarried`, `txAnnounced_carried` — so does everything else but a submission;
* `TxMeetsMalformed` — a batch, taken up to where the ring or the byte budget is full, holds a
  malformed packet;
* `txDequeueAction_announced_iff` — **a submission announces what it pushes exactly when it meets no
  malformed packet**, or has no room to queue it.
-/

namespace Rtl812x.Dext

open Trace

/-! ### Announced calls -/

/-- The event appends to the FIFO of queue `q`. -/
def TxEvent.PushTo (q : ℕ) (e : TxEvent) : Prop := ∃ p, e = .push q p

/-- Every push onto a transmit FIFO has a later request on its queue. -/
def TxAnswered (added : List TxEvent) : Prop :=
  ∀ q newer p older, added = newer ++ .push q p :: older → .requestEnqueue q ∈ newer

theorem txAnswered_iff {added : List TxEvent} :
    TxAnswered added ↔ ∀ q, Answered (TxEvent.PushTo q) (· = .requestEnqueue q) added := by
  simp only [TxAnswered, answered_iff]
  constructor
  · rintro h q newer e older heq ⟨p, rfl⟩
    exact Or.inr ⟨_, h q newer p older heq, rfl⟩
  · intro h q newer p older heq
    rcases h q newer _ older heq ⟨p, rfl⟩ with he | ⟨r, hmem, rfl⟩
    · cases he
    · exact hmem

/-- Between two states of the transmit side every push was announced. -/
def TxAnnounced (s s' : TxSide) : Prop := Grew TxAnswered s.trace s'.trace

variable {s s' s'' : TxSide}

theorem TxAnnounced.trans (h : TxAnnounced s s') (h' : TxAnnounced s' s'') : TxAnnounced s s'' := by
  refine Grew.trans (fun l' l hl' hl => ?_) h h'
  rw [txAnswered_iff] at hl hl' ⊢
  exact fun q => (hl' q).append (hl q)

/-- A call that pushes nothing. -/
theorem txAnnounced_of_no_push (added : List TxEvent) (heq : s'.trace = added ++ s.trace)
    (hno : ∀ q p, .push q p ∉ added) : TxAnnounced s s' := by
  refine ⟨added, heq, ?_⟩
  rw [txAnswered_iff]
  intro q
  apply answered_of_not_push
  rintro e he ⟨p, rfl⟩
  exact hno q p he

theorem TxAnnounced.refl (s : TxSide) : TxAnnounced s s :=
  txAnnounced_of_no_push [] rfl fun _ _ h => by cases h

/-! ### Reclaim -/

/-- Completing a packet records one event: the push, unless the FIFO is full. -/
theorem txComplete_trace_eq (q p : ℕ) (status : IOReturn) (s : TxSide) :
    (txComplete q p status s).trace =
      (if (fifoPush (s.txDoneFifo q) p).1 then .push q p else .dealloc p) :: s.trace := rfl

theorem push_eq_completion {b : Bool} {q p q' p' : ℕ}
    (h : TxEvent.push q' p' = if b then .push q p else .dealloc p) : b = true ∧ q' = q := by
  cases b with
  | true =>
      cases h
      exact ⟨rfl, rfl⟩
  | false => cases h

/-- Retiring a descriptor pushes to the queue it notes, or not at all. -/
theorem txRetire_trace (abort : Bool) (s : TxSide) :
    ∃ added, (txRetire abort s).trace = added ++ s.trace ∧
      ∀ q p, .push q p ∈ added → txRetireQueue s = some q := by
  simp only [txRetire, txRelease, txRetireQueue]
  cases hpkt : s.txPkt s.hw.txDirtyDescIndex with
  | none =>
      refine ⟨[.retire s.hw.txDirtyDescIndex], rfl, fun q p h => ?_⟩
      cases List.mem_singleton.mp h
  | some pkt =>
      simp only [txComplete_trace_eq]
      refine ⟨[_, _], rfl, fun q p h => ?_⟩
      rw [List.mem_cons, List.mem_singleton] at h
      rcases h with h | h
      · cases h
      · rw [(push_eq_completion h).2]
        rfl

theorem txRetireQueue_lt {q : ℕ} (h : txRetireQueue s = some q) : q < kNumTxQueues := by
  rw [txRetireQueue, Option.map_eq_some_iff] at h
  obtain ⟨p, -, rfl⟩ := h
  show (if _ then _ else 0) < kNumTxQueues
  split
  · assumption
  · decide

theorem txNoteWork_of_some {didWork : ℕ → Bool} {q : ℕ} (h : txRetireQueue s = some q) :
    txNoteWork didWork s = Function.update didWork q true := by
  simp only [txNoteWork, h]

/-- What is noted stays noted. -/
theorem txRetireLoop_didWork (abort : Bool) {n : ℕ} {didWork : ℕ → Bool} {q : ℕ}
    (h : didWork q = true) : (txRetireLoop abort n didWork s).1 q = true := by
  induction n generalizing s didWork with
  | zero => exact h
  | succ n ih =>
      apply ih
      cases hqueue : txRetireQueue s with
      | none =>
          simp only [txNoteWork, hqueue]
          exact h
      | some q' =>
          rw [txNoteWork_of_some hqueue]
          by_cases hq : q = q'
          · rw [hq, Function.update_self]
          · rw [Function.update_of_ne hq]
            exact h

/-- **Every queue that the loop pushes to is noted.** -/
theorem txRetireLoop_trace (abort : Bool) (n : ℕ) (didWork : ℕ → Bool) (s : TxSide) :
    ∃ added, (txRetireLoop abort n didWork s).2.trace = added ++ s.trace ∧
      ∀ q p, .push q p ∈ added → (txRetireLoop abort n didWork s).1 q = true ∧ q < kNumTxQueues := by
  induction n generalizing didWork s with
  | zero => exact ⟨[], rfl, fun _ _ h => by cases h⟩
  | succ n ih =>
      obtain ⟨added, heq, hadded⟩ := txRetire_trace abort s
      obtain ⟨added', heq', hadded'⟩ := ih (txNoteWork didWork s) (txRetire abort s)
      refine ⟨added' ++ added, ?_, fun q p h => ?_⟩
      · rw [txRetireLoop, heq', heq, List.append_assoc]
      · rcases List.mem_append.mp h with h | h
        · exact hadded' q p h
        · have hq := hadded q p h
          have hnoted : txNoteWork didWork s q = true := by
            rw [txNoteWork_of_some hq, Function.update_self]
          refine ⟨?_, txRetireQueue_lt hq⟩
          show (txRetireLoop abort n (txNoteWork didWork s) (txRetire abort s)).1 q = true
          exact txRetireLoop_didWork abort hnoted

/-- The requests of a reclaim include one for every queue noted. -/
theorem requestEnqueue_mem_txRequests {didWork : ℕ → Bool} {q : ℕ} (hq : q < kNumTxQueues)
    (h : didWork q = true) : .requestEnqueue q ∈ txRequests didWork := by
  have hany : (List.range kNumTxQueues).any didWork = true :=
    List.any_eq_true.mpr ⟨q, List.mem_range.mpr hq, h⟩
  rw [txRequests, if_pos hany, List.mem_reverse, List.mem_flatMap]
  exact ⟨q, List.mem_range.mpr hq, by simp [h]⟩

/-- The requests answer everything a loop with these notes pushed. -/
theorem txRequests_answer {didWork : ℕ → Bool} {added : List TxEvent}
    (hadded : ∀ q p, .push q p ∈ added → didWork q = true ∧ q < kNumTxQueues) :
    TxAnswered (txRequests didWork ++ added) := by
  rw [txAnswered_iff]
  intro q
  have hno : ∀ e ∈ txRequests didWork, ¬ TxEvent.PushTo q e := by
    rintro e he ⟨p, rfl⟩
    obtain ⟨i, h | h⟩ := mem_txRequests he <;> cases h
  by_cases hpush : ∃ p, .push q p ∈ added
  · obtain ⟨p, hp⟩ := hpush
    obtain ⟨hwork, hq⟩ := hadded q p hp
    have hreq : ∃ r ∈ txRequests didWork, r = .requestEnqueue q :=
      ⟨_, requestEnqueue_mem_txRequests hq hwork, rfl⟩
    exact answered_append_of_req hno hreq added
  · apply Answered.append (answered_of_not_push hno)
    apply answered_of_not_push
    rintro e he ⟨p, rfl⟩
    exact hpush ⟨p, he⟩

/-- **A reclaim announces what it completes.** -/
theorem txRingReclaim_announced (m : Mcfg) (abort : Bool) (clo : ℕ) (s : TxSide) :
    TxAnnounced s (txRingReclaim m abort clo s) := by
  rw [txRingReclaim_eq]
  obtain ⟨added, heq, hadded⟩ := txRetireLoop_trace abort (s.hw.numDone m abort clo) (fun _ => false)
    (s.closeTo (s.hw.nextClose m abort clo))
  generalize txRetireLoop abort (s.hw.numDone m abort clo) (fun _ => false)
    (s.closeTo (s.hw.nextClose m abort clo)) = r at heq hadded ⊢
  refine ⟨txRequests r.1 ++ added, ?_, txRequests_answer hadded⟩
  show txRequests r.1 ++ r.2.trace = _
  rw [heq, List.append_assoc]
  rfl

/-- Handing completions back pushes nothing. -/
theorem txEnqueueLoop_announced (q n : ℕ) (s : TxSide) : TxAnnounced s (txEnqueueLoop q n s).2 := by
  induction n generalizing s with
  | zero => exact TxAnnounced.refl s
  | succ n ih =>
      simp only [txEnqueueLoop]
      split
      · exact TxAnnounced.refl s
      · rename_i p _
        refine TxAnnounced.trans ?_ (ih _)
        refine txAnnounced_of_no_push [.pop q p] rfl fun q' p' hmem => ?_
        cases List.mem_singleton.mp hmem

/-! ### Everything but a submission -/

/-- `P` survives whatever the driver does to the transmit side outside of `txDequeueAction`. -/
structure TxCarried (m : Mcfg) (P : TxSide → Prop) : Prop extends TxKept m P (fun _ => True) where
  reclaim : ∀ clo s, P s → P (txRingReclaim m false clo s)
  enqueue : ∀ q n s, P s → P (txEnqueueLoop q n s).2

/-- Only submissions push without asking: what follows from one state stays announced. -/
theorem txAnnounced_carried (m : Mcfg) (s : TxSide) : TxCarried m (TxAnnounced s) where
  requestAll := fun t h => by
    refine h.trans (txAnnounced_of_no_push _ rfl fun q p hmem => ?_)
    simp at hmem
  reset := fun t _ h => by
    refine h.trans (txAnnounced_of_no_push [.ringReset] rfl fun q p hmem => ?_)
    cases List.mem_singleton.mp hmem
  idle_reset := fun _ => trivial
  linkDown := fun t h => by
    refine (h.trans (txRingReclaim_announced m true 0 t)).trans
      (txAnnounced_of_no_push [.ringReset] rfl fun q p hmem => ?_)
    cases List.mem_singleton.mp hmem
  abort := fun t h => h.trans (txRingReclaim_announced m true 0 t)
  reclaim := fun clo t h => h.trans (txRingReclaim_announced m false clo t)
  enqueue := fun q n t h => h.trans (txEnqueueLoop_announced q n t)

/-! ### Submission -/

/-- A batch, with so many free descriptors and so many bytes in flight: going through it up to where
there is no more room, the loop meets a malformed packet. -/
def TxMeetsMalformed : ℤ → ℤ → List TxPacket → Prop
  | _, _, [] => False
  | free, bytes, pkt :: pkts =>
      2 < free ∧ bytes < kTxInflightBytesLimit ∧
        (txView pkt = none ∨ TxMeetsMalformed (free - 1) (bytes + pkt.dataLength) pkts)

instance : ∀ (free bytes : ℤ) (pkts : List TxPacket), Decidable (TxMeetsMalformed free bytes pkts)
  | _, _, [] => isFalse not_false
  | free, bytes, pkt :: pkts =>
      have := instDecidableTxMeetsMalformed (free - 1) (bytes + pkt.dataLength) pkts
      inferInstanceAs (Decidable (_ ∧ _ ∧ (_ ∨ _)))

/-- The FIFO takes no more packets. -/
def PacketFifo.Full (f : PacketFifo) : Prop := (f.tail + 1) &&& kFifoMask = f.head

instance (f : PacketFifo) : Decidable f.Full := inferInstanceAs (Decidable (_ = _))

/-- The free count is a 32-bit number. -/
def FreeInRange (s : TxSide) : Prop :=
  -(2 ^ 31) ≤ s.hw.txNumFreeDesc ∧ s.hw.txNumFreeDesc < 2 ^ 31

theorem fifoPush_fst (f : PacketFifo) (p : ℕ) : (fifoPush f p).1 = true ↔ ¬ f.Full := by
  simp only [fifoPush, PacketFifo.Full]
  split <;> simp [*]

theorem fifoPush_of_full {f : PacketFifo} (h : f.Full) (p : ℕ) : fifoPush f p = (false, f) := by
  simp only [fifoPush]
  exact if_pos h

theorem not_noSpace_iff (s : TxSide) :
    ¬ s.noSpace ↔ 2 < s.hw.txNumFreeDesc ∧ s.txInflightBytes < kTxInflightBytesLimit := by
  simp [TxSide.noSpace]

/-- What the submission loop records: it asks for nothing, it pushes to its own queue only, and it
pushes exactly if there is room for a malformed packet it meets. -/
structure LoopRecord (q : ℕ) (s : TxSide) (packets : List TxPacket) (added : List TxEvent) : Prop where
  asks : ∀ q', .requestEnqueue q' ∉ added
  own : ∀ q' p, .push q' p ∈ added → q' = q
  pushes : (∃ p, .push q p ∈ added) ↔ ¬ (s.txDoneFifo q).Full ∧
    TxMeetsMalformed s.hw.txNumFreeDesc s.txInflightBytes packets

/-- A loop that stops at once, or has nothing to do. -/
theorem LoopRecord.stop {q : ℕ} {packets : List TxPacket}
    (h : ¬ TxMeetsMalformed s.hw.txNumFreeDesc s.txInflightBytes packets) : LoopRecord q s packets [] where
  asks := fun _ hmem => by cases hmem
  own := fun _ _ hmem => by cases hmem
  pushes := by
    refine ⟨?_, fun hmeets => absurd hmeets.2 h⟩
    rintro ⟨_, hmem⟩
    cases hmem

/-- A placed packet is recorded, and the rest of the batch finds one descriptor less. -/
theorem LoopRecord.place {q iova : ℕ} {pkt : TxPacket} {packets : List TxPacket}
    {added : List TxEvent} (hroom : ¬ s.noSpace) (hrange : FreeInRange s) (hview : txView pkt = some iova)
    (h : LoopRecord q (txPlace q pkt iova s) packets added) (index : ℕ) :
    LoopRecord q s (pkt :: packets) (added ++ [.place index pkt.id q]) where
  asks := by
    intro q' hmem
    rcases List.mem_append.mp hmem with hmem | hmem
    · exact h.asks q' hmem
    · cases List.mem_singleton.mp hmem
  own := by
    intro q' p hmem
    rcases List.mem_append.mp hmem with hmem | hmem
    · exact h.own q' p hmem
    · cases List.mem_singleton.mp hmem
  pushes := by
    rw [not_noSpace_iff] at hroom
    have hfree : (txPlace q pkt iova s).hw.txNumFreeDesc = s.hw.txNumFreeDesc - 1 := by
      obtain ⟨hlo, hhi⟩ := hrange
      exact osAddAtomic_eq (by omega) (by omega)
    have hpush := h.pushes
    rw [hfree] at hpush
    simp only [List.mem_append, List.mem_singleton, reduceCtorEq, or_false, TxMeetsMalformed, hview,
      false_or, hroom, true_and]
    exact hpush

/-- A rejected packet is pushed, unless the FIFO is full; then nothing of the batch is. -/
theorem LoopRecord.reject {q : ℕ} {pkt : TxPacket} {packets : List TxPacket} {added : List TxEvent}
    (hroom : ¬ s.noSpace) (hview : txView pkt = none)
    (h : LoopRecord q (txReject q pkt s) packets added) :
    LoopRecord q s (pkt :: packets) (added ++
      [if (fifoPush (s.txDoneFifo q) pkt.id).1 then TxEvent.push q pkt.id else .dealloc pkt.id,
        TxEvent.reject pkt.id q]) where
  asks := by
    intro q' hmem
    simp only [List.mem_append, List.mem_cons, List.not_mem_nil, or_false, reduceCtorEq] at hmem
    rcases hmem with hmem | hmem
    · exact h.asks q' hmem
    · split at hmem <;> cases hmem
  own := by
    intro q' p hmem
    simp only [List.mem_append, List.mem_cons, List.not_mem_nil, or_false, reduceCtorEq] at hmem
    rcases hmem with hmem | hmem
    · exact h.own q' p hmem
    · exact (push_eq_completion hmem).2
  pushes := by
    rw [not_noSpace_iff] at hroom
    simp only [TxMeetsMalformed, hview, true_or, hroom, and_true]
    constructor
    · rintro ⟨p, hmem⟩ hfull
      have hsame : (txReject q pkt s).txDoneFifo q = s.txDoneFifo q := by
        show Function.update s.txDoneFifo q (fifoPush (s.txDoneFifo q) pkt.id).2 q = _
        rw [Function.update_self, fifoPush_of_full hfull]
      rcases List.mem_append.mp hmem with hmem | hmem
      · have hnot := (h.pushes.mp ⟨p, hmem⟩).1
        rw [hsame] at hnot
        exact hnot hfull
      · rw [fifoPush_of_full hfull] at hmem
        simp at hmem
    · intro hnot
      refine ⟨pkt.id, List.mem_append_right _ ?_⟩
      rw [if_pos ((fifoPush_fst _ _).mpr hnot)]
      exact List.mem_cons_self ..

/-- **The record of a submission loop.** -/
theorem txDequeueLoop_record (q : ℕ) (packets : List TxPacket) (accepted : ℕ) {s : TxSide}
    (hrange : FreeInRange s) :
    ∃ added, (txDequeueLoop q packets accepted s).2.trace = added ++ s.trace ∧
      LoopRecord q s packets added := by
  induction packets generalizing accepted s with
  | nil => exact ⟨[], rfl, LoopRecord.stop not_false⟩
  | cons pkt packets ih =>
      rw [txDequeueLoop]
      split
      case isTrue hfull =>
        refine ⟨[], rfl, LoopRecord.stop ?_⟩
        rintro ⟨hfree, hbytes, -⟩
        exact (not_noSpace_iff s).mpr ⟨hfree, hbytes⟩ hfull
      case isFalse hroom =>
        cases hview : txView pkt with
        | none =>
            have haccept : txAccept q pkt s = txReject q pkt s := by rw [txAccept, hview]
            rw [haccept]
            obtain ⟨added, heq, hrec⟩ := ih (accepted + 1) (s := txReject q pkt s) hrange
            refine ⟨_, ?_, hrec.reject hroom hview⟩
            rw [heq, List.append_assoc]
            rfl
        | some iova =>
            have haccept : txAccept q pkt s = txPlace q pkt iova s := by rw [txAccept, hview]
            have hrange' : FreeInRange (txPlace q pkt iova s) := by
              rw [not_noSpace_iff] at hroom
              obtain ⟨hlo, hhi⟩ := hrange
              show -(2 ^ 31) ≤ osAddAtomic (-1) s.hw.txNumFreeDesc ∧
                osAddAtomic (-1) s.hw.txNumFreeDesc < 2 ^ 31
              rw [osAddAtomic_eq] <;> omega
            rw [haccept]
            obtain ⟨added, heq, hrec⟩ := ih (accepted + 1) hrange'
            refine ⟨_, ?_, hrec.place hroom hrange hview s.hw.txNextDescIndex⟩
            rw [heq, List.append_assoc]
            rfl

/-- The doorbell does not matter. -/
theorem LoopRecord.bell {q : ℕ} {packets : List TxPacket} {added : List TxEvent}
    (h : LoopRecord q s packets added) (reg : ℕ) : LoopRecord q s packets (.doorbell reg :: added) where
  asks := fun q' hmem => h.asks q' (by simpa using hmem)
  own := fun q' p hmem => h.own q' p (by simpa using hmem)
  pushes := by simpa using h.pushes

theorem txDequeueAction_record (m : Mcfg) (queue : PacketQueue) (packets : List TxPacket) {s : TxSide}
    (hrange : FreeInRange s) :
    ∃ added, (txDequeueAction m true queue packets s).2.trace = added ++ s.trace ∧
      LoopRecord (txQueueIndex queue) s packets added := by
  obtain ⟨added, heq, hrec⟩ := txDequeueLoop_record (txQueueIndex queue) packets 0 hrange
  simp only [txDequeueAction, Bool.not_true, Bool.false_eq_true, if_false]
  split
  · refine ⟨_, ?_, hrec.bell (rtl812xDoorbell (hwSuppTxNoCloseVer m)
      (txDequeueLoop (txQueueIndex queue) packets 0 s).2.hw.txTailPtr0)⟩
    rw [List.cons_append, ← heq]
    rfl
  · exact ⟨added, heq, hrec⟩

/-- The batch leads to a push that nothing announces: the link is up, the FIFO of its queue has room,
and the loop meets a malformed packet. -/
def TxRejects (d : Driver) (queue : PacketQueue) (packets : List TxPacket) : Prop :=
  d.linkUp = true ∧ ¬ (d.tx.txDoneFifo (txQueueIndex queue)).Full ∧
    TxMeetsMalformed d.tx.hw.txNumFreeDesc d.tx.txInflightBytes packets

instance (d : Driver) (queue : PacketQueue) (packets : List TxPacket) :
    Decidable (TxRejects d queue packets) := inferInstanceAs (Decidable (_ ∧ _ ∧ _))

/-- **A submission announces what it pushes exactly when it pushes nothing.** -/
theorem txDequeueAction_announced_iff {d : Driver} (hrange : FreeInRange d.tx) (m : Mcfg)
    (queue : PacketQueue) (packets : List TxPacket) :
    TxAnnounced d.tx (txDequeueAction m d.linkUp queue packets d.tx).2 ↔
      ¬ TxRejects d queue packets := by
  rw [TxRejects]
  cases hlink : d.linkUp with
  | false =>
      refine ⟨?_, fun _ => TxAnnounced.refl _⟩
      rintro - ⟨h, -⟩
      cases h
  | true =>
      obtain ⟨added, heq, hrec⟩ := txDequeueAction_record m queue packets hrange
      rw [← hrec.pushes, TxAnnounced, heq]
      constructor
      · rintro hgrew ⟨-, p, hp⟩
        have hans := txAnswered_iff.mp hgrew.added (txQueueIndex queue)
        refine hans.not_push ?_ _ hp ⟨p, rfl⟩
        rintro e he rfl
        exact hrec.asks _ he
      · intro hnone
        refine Grew.mk (txAnswered_iff.mpr fun q => answered_of_not_push ?_) _
        rintro e he ⟨p, rfl⟩
        exact hnone ⟨rfl, p, hrec.own q p he ▸ he⟩

/-! ### The free count stays a 32-bit number -/

theorem osAddAtomic_range (a b : ℤ) : -(2 ^ 31) ≤ osAddAtomic a b ∧ osAddAtomic a b < 2 ^ 31 := by
  have hlo := @Int.le_bmod (b + a) (2 ^ 32) (by decide)
  have hhi := @Int.bmod_lt (b + a) (2 ^ 32) (by decide)
  unfold osAddAtomic
  omega

theorem txRetireLoop_free (abort : Bool) (n : ℕ) (didWork : ℕ → Bool) (s : TxSide) :
    (txRetireLoop abort n didWork s).2.hw.txNumFreeDesc = s.hw.txNumFreeDesc := by
  induction n generalizing didWork s with
  | zero => rfl
  | succ n ih => rw [txRetireLoop, ih, txRetire_hw]

theorem FreeInRange.txRingReclaim (hrange : FreeInRange s) (m : Mcfg) (abort : Bool) (clo : ℕ) :
    FreeInRange (txRingReclaim m abort clo s) := by
  rw [txRingReclaim_eq]
  unfold FreeInRange txPublish
  dsimp only
  split
  · rw [txRetireLoop_free]
    exact hrange
  · exact osAddAtomic_range _ _

theorem FreeInRange.txDequeueLoop (hrange : FreeInRange s) (q : ℕ) (packets : List TxPacket)
    (accepted : ℕ) : FreeInRange (txDequeueLoop q packets accepted s).2 := by
  induction packets generalizing accepted s with
  | nil => exact hrange
  | cons pkt packets ih =>
      rw [Dext.txDequeueLoop]
      split
      · exact hrange
      · apply ih
        unfold txAccept
        split
        · exact hrange
        · exact osAddAtomic_range _ _

theorem FreeInRange.txDequeueAction (hrange : FreeInRange s) (m : Mcfg) (linkUp : Bool)
    (queue : PacketQueue) (packets : List TxPacket) :
    FreeInRange (txDequeueAction m linkUp queue packets s).2 := by
  have hloop := hrange.txDequeueLoop (txQueueIndex queue) packets 0
  simp only [Dext.txDequeueAction]
  split
  · exact hrange
  · split <;> exact hloop

theorem FreeInRange.txEnqueueLoop (hrange : FreeInRange s) (q n : ℕ) :
    FreeInRange (txEnqueueLoop q n s).2 := by
  induction n generalizing s with
  | zero => exact hrange
  | succ n ih =>
      simp only [Dext.txEnqueueLoop]
      split
      · exact hrange
      · exact ih hrange

theorem FreeInRange.restart (s : TxSide) : FreeInRange (txRingReset s) :=
  show -(2 ^ 31) ≤ TxIndex.restart.txNumFreeDesc ∧ TxIndex.restart.txNumFreeDesc < 2 ^ 31 by decide

theorem freeInRange_carried (m : Mcfg) : TxCarried m FreeInRange where
  requestAll := fun _ h => h
  reset := fun s _ _ => FreeInRange.restart s
  idle_reset := fun _ => trivial
  linkDown := fun s _ => FreeInRange.restart (txRingReclaim m true 0 s)
  abort := fun _ h => h.txRingReclaim m true 0
  reclaim := fun clo _ h => h.txRingReclaim m false clo
  enqueue := fun q n _ h => h.txEnqueueLoop q n

end Rtl812x.Dext
