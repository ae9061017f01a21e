import Rtl812x.Lib.BoundedQueue
import Rtl812x.Dext.FifoRace

/-!
# The hand-off FIFO with one producer is a bounded queue

`fifoPush` and `fifoPop` at the granularity of their loads and stores, under sequential consistency,
by one producer and one consumer, with any number of operations and the indices wrapping any number
of times.  The accesses are those of the two-producer model with one producer only.

A push takes effect when it stores the tail, a pop when it stores the head; a push that fails does so
when it reads the head, a pop that returns null when it reads the tail.

* `SpscOp`, `spscStep` — the accesses of the two threads;
* `callEvent` — the call that takes effect with an access, if one does;
* `SpscInv`, `SpscInv.spscStep` — what both threads know, and that every access keeps it;
* `fifo_refines_boundedQueue` — **the FIFO is linearizable**: every run is a sequence of calls of a
  bounded queue with `kFifoMask` places;
* `PushFails`, `PopReturnsNull` — a call that fails, told by what its last access leaves;
* `fifo_is_bounded_queue` — what follows for the results of the calls.
-/

namespace Rtl812x.Dext

open Runs BoundedQueue

/-! ### One producer, one consumer -/

/-- One access of the producer or of the consumer. -/
inductive SpscOp where
  /-- `UInt32 tail = f->tail`, at the start of a push of `p` -/
  | loadTail (p : ℕ)
  /-- the acquire load of `f->head`, and the test against `next` -/
  | loadHead
  /-- `f->slots[tail] = p` -/
  | storeSlot
  /-- the release store of `f->tail` -/
  | storeTail
  /-- `UInt32 head = f->head`, at the start of a pop -/
  | popLoadHead
  /-- the acquire load of `f->tail`, and the test against `head` -/
  | popLoadTail
  /-- `p = f->slots[head]` -/
  | popLoadSlot
  /-- the release store of `f->head` -/
  | popStoreHead
deriving DecidableEq, Repr

/-- The access in the model with two producers; the producer is the one that takes no lock. -/
def SpscOp.access : SpscOp → HandoffOp
  | .loadTail p => .loadTail .reclaim p
  | .loadHead => .loadHead .reclaim
  | .storeSlot => .storeSlot .reclaim
  | .storeTail => .storeTail .reclaim
  | .popLoadHead => .popLoadHead
  | .popLoadTail => .popLoadTail
  | .popLoadSlot => .popLoadSlot
  | .popStoreHead => .popStoreHead

def spscStep (s : Handoff) (op : SpscOp) : Handoff := handoffStep s op.access

/-- The packets that were pushed and not yet popped, oldest first. -/
def Handoff.queued (s : Handoff) : List ℕ := s.pushed.drop s.popped.length

/-- The access ends a push that pushed nothing: `fifoPush` returns false. -/
def PushFails (s : Handoff) (op : SpscOp) : Prop :=
  s.producer .reclaim ≠ .idle ∧ (spscStep s op).producer .reclaim = .idle ∧
    (spscStep s op).pushed = s.pushed

/-- The access ends a pop that returned no packet: `fifoPop` returns null. -/
def PopReturnsNull (s : Handoff) (op : SpscOp) : Prop :=
  s.consumer ≠ .idle ∧ (spscStep s op).consumer = .idle ∧ (spscStep s op).popped = s.popped

/-- The call that takes effect with an access. -/
def callEvent (s : Handoff) : SpscOp → Option (Event ℕ)
  | .loadHead =>
    match s.producer .reclaim with
    | .loadedTail _ tail => if (tail + 1) &&& kFifoMask = s.fifo.head then some .full else none
    | _ => none
  | .storeTail =>
    match s.producer .reclaim with
    | .stored p _ => some (.push p)
    | _ => none
  | .popLoadTail =>
    match s.consumer with
    | .loadedHead head => if head = s.fifo.tail then some .empty else none
    | _ => none
  | .popStoreHead =>
    match s.consumer with
    | .loadedSlot _ (some p) => some (.pop p)
    | .loadedSlot _ none => some .empty
    | _ => none
  | _ => none

/-! ### The invariant -/

/-- The two-producer invariant, with the second producer idle: the tail the producer read is current,
as nobody else stores it. -/
structure SpscInv (s : Handoff) (q : List ℕ) : Prop where
  handoff : HandoffInv s q
  other_idle : s.producer .dequeue = .idle
  tail_current : ∀ p tail, s.producer .reclaim = .loadedTail p tail → tail = s.fifo.tail

variable {s : Handoff} {q : List ℕ} {op : SpscOp}

/-- The access is one of the producer. -/
def SpscOp.pushes : SpscOp → Bool
  | .loadTail _ | .loadHead | .storeSlot | .storeTail => true
  | .popLoadHead | .popLoadTail | .popLoadSlot | .popStoreHead => false

/-- The consumer leaves the producer and the tail alone. -/
theorem spscStep_of_pop (hop : op.pushes = false) :
    (spscStep s op).producer = s.producer ∧ (spscStep s op).fifo.tail = s.fifo.tail := by
  cases op with
  | popLoadHead =>
      simp only [spscStep, SpscOp.access, handoffStep]
      split <;> exact ⟨rfl, rfl⟩
  | popLoadTail =>
      simp only [spscStep, SpscOp.access, handoffStep]
      split
      · split <;> exact ⟨rfl, rfl⟩
      · exact ⟨rfl, rfl⟩
  | popLoadSlot =>
      simp only [spscStep, SpscOp.access, handoffStep]
      split <;> exact ⟨rfl, rfl⟩
  | popStoreHead =>
      simp only [spscStep, SpscOp.access, handoffStep]
      split <;> exact ⟨rfl, rfl⟩
  | loadTail p => cases hop
  | loadHead => cases hop
  | storeSlot => cases hop
  | storeTail => cases hop

/-- The producer leaves the consumer alone. -/
theorem spscStep_of_push (hop : op.pushes = true) : (spscStep s op).consumer = s.consumer := by
  cases op with
  | loadTail p =>
      simp only [spscStep, SpscOp.access, handoffStep]
      split <;> rfl
  | loadHead =>
      simp only [spscStep, SpscOp.access, handoffStep]
      split
      · split <;> rfl
      · rfl
  | storeSlot =>
      simp only [spscStep, SpscOp.access, handoffStep]
      split <;> rfl
  | storeTail =>
      simp only [spscStep, SpscOp.access, handoffStep]
      split <;> rfl
  | popLoadHead => cases hop
  | popLoadTail => cases hop
  | popLoadSlot => cases hop
  | popStoreHead => cases hop

theorem SpscInv.init : SpscInv Handoff.init [] :=
  ⟨HandoffInv.init, rfl, nofun⟩

/-- The queue is what was pushed and not popped. -/
theorem SpscInv.queued_eq (h : SpscInv s q) : s.queued = q := by
  rw [Handoff.queued, h.handoff.order, List.drop_left]

/-- One producer's pushes are alone. -/
theorem SpscInv.alone (h : SpscInv s q) (op : SpscOp) : Alone s op.access := by
  cases op with
  | loadHead =>
      intro p tail hpc _
      refine ⟨h.tail_current p tail hpc, ?_⟩
      intro w
      cases w with
      | dequeue => rw [h.other_idle]; rfl
      | reclaim => rw [hpc]; rfl
  | loadTail p => trivial
  | storeSlot => trivial
  | storeTail => trivial
  | popLoadHead => trivial
  | popLoadTail => trivial
  | popLoadSlot => trivial
  | popStoreHead => trivial

/-- A step of the producer: what it leaves of the invariant's two facts about producers. -/
theorem SpscInv.setPush (h : SpscInv s q) {pc : PushPc}
    (hpc : ∀ p tail, pc = .loadedTail p tail → tail = s.fifo.tail) :
    (s.setPush .reclaim pc).producer .dequeue = .idle ∧
      ∀ p tail, (s.setPush .reclaim pc).producer .reclaim = .loadedTail p tail →
        tail = s.fifo.tail := by
  refine ⟨?_, ?_⟩
  · show Function.update s.producer .reclaim pc .dequeue = .idle
    rw [Function.update_of_ne (by decide), h.other_idle]
  · intro p tail hload
    simp only [Handoff.setPush, Function.update_self] at hload
    exact hpc p tail hload

/-- The second producer stays idle, and the tail the first one read stays current. -/
theorem SpscInv.producers (h : SpscInv s q) (op : SpscOp) :
    (Dext.spscStep s op).producer .dequeue = .idle ∧
      ∀ p tail, (Dext.spscStep s op).producer .reclaim = .loadedTail p tail →
        tail = (Dext.spscStep s op).fifo.tail := by
  have hkeep := And.intro h.other_idle h.tail_current
  have hpop : op.pushes = false → (Dext.spscStep s op).producer .dequeue = .idle ∧
      ∀ p tail, (Dext.spscStep s op).producer .reclaim = .loadedTail p tail →
        tail = (Dext.spscStep s op).fifo.tail := by
    intro hop
    obtain ⟨hproducer, htail⟩ := spscStep_of_pop (s := s) hop
    rw [hproducer, htail]
    exact hkeep
  cases op with
  | loadTail p =>
      simp only [Dext.spscStep, SpscOp.access, handoffStep]
      split
      · refine h.setPush ?_
        rintro p' tail ⟨⟩
        rfl
      · exact hkeep
  | loadHead =>
      simp only [Dext.spscStep, SpscOp.access, handoffStep]
      split
      · split
        · exact h.setPush (by rintro p tail ⟨⟩)
        · exact h.setPush (by rintro p tail ⟨⟩)
      · exact hkeep
  | storeSlot =>
      simp only [Dext.spscStep, SpscOp.access, handoffStep]
      split
      · exact h.setPush (by rintro p tail ⟨⟩)
      · exact hkeep
  | storeTail =>
      simp only [Dext.spscStep, SpscOp.access, handoffStep]
      split
      · have hidle : ∀ p tail, PushPc.idle = .loadedTail p tail → tail = s.fifo.tail := by
          rintro p tail ⟨⟩
        refine ⟨(h.setPush hidle).1, ?_⟩
        intro p tail hload
        exact absurd hload (by simp [Handoff.setPush])
      · exact hkeep
  | popLoadHead => exact hpop rfl
  | popLoadTail => exact hpop rfl
  | popLoadSlot => exact hpop rfl
  | popStoreHead => exact hpop rfl

/-- **Every access keeps the invariant**, for the queue it leaves. -/
theorem SpscInv.spscStep (h : SpscInv s q) (op : SpscOp) :
    SpscInv (Dext.spscStep s op) (Dext.spscStep s op).queued := by
  obtain ⟨q', hq'⟩ := h.handoff.handoffStep op.access (h.alone op)
  have hinv : SpscInv (Dext.spscStep s op) q' := ⟨hq', (h.producers op).1, (h.producers op).2⟩
  rw [hinv.queued_eq]
  exact hinv

/-! ### Every access is a call of the queue or invisible -/

/-- A push that reads the head finds it one after the tail exactly when the queue is full. -/
theorem SpscInv.full_iff (h : SpscInv s q) {p tail : ℕ}
    (hpc : s.producer .reclaim = .loadedTail p tail) :
    (tail + 1) &&& kFifoMask = s.fifo.head ↔ q.length = kFifoMask := by
  rw [h.tail_current p tail hpc]
  exact h.handoff.holds.next_eq_head_iff

/-- A pop that reads the tail finds it at the head exactly when the queue is empty. -/
theorem SpscInv.empty_iff (h : SpscInv s q) {head : ℕ} (hpc : s.consumer = .loadedHead head) :
    head = s.fifo.tail ↔ q = [] := by
  have hpop := h.handoff.pop_ok
  rw [hpc] at hpop
  obtain rfl : head = s.fifo.head := hpop
  exact h.handoff.holds.head_eq_tail_iff

/-- What a pop is about to return is the oldest packet. -/
theorem SpscInv.popping (h : SpscInv s q) {head : ℕ} {r : Option ℕ}
    (hpc : s.consumer = .loadedSlot head r) : ∃ p rest, r = some p ∧ q = p :: rest := by
  have hpop := h.handoff.pop_ok
  rw [hpc] at hpop
  exact hpop.2

/-- The queue is as each call that takes effect says it is. -/
theorem SpscInv.guard (h : SpscInv s q) {e : Event ℕ} (he : callEvent s op = some e) :
    Guard kFifoMask q e := by
  cases op with
  | loadHead =>
      cases hpc : s.producer .reclaim with
      | loadedTail p tail =>
          simp only [callEvent, hpc, Option.ite_none_right_eq_some, Option.some.injEq] at he
          obtain ⟨hfull, rfl⟩ := he
          exact (h.full_iff hpc).mp hfull
      | idle => simp [callEvent, hpc] at he
      | room p tail => simp [callEvent, hpc] at he
      | stored p tail => simp [callEvent, hpc] at he
  | storeTail =>
      cases hpc : s.producer .reclaim with
      | stored p tail =>
          have hok := h.handoff.push_ok .reclaim
          rw [hpc] at hok
          simp only [callEvent, hpc, Option.some.injEq] at he
          obtain rfl := he
          exact hok.2.1
      | idle => simp [callEvent, hpc] at he
      | loadedTail p tail => simp [callEvent, hpc] at he
      | room p tail => simp [callEvent, hpc] at he
  | popLoadTail =>
      cases hpc : s.consumer with
      | loadedHead head =>
          simp only [callEvent, hpc, Option.ite_none_right_eq_some, Option.some.injEq] at he
          obtain ⟨hempty, rfl⟩ := he
          exact (h.empty_iff hpc).mp hempty
      | idle => simp [callEvent, hpc] at he
      | nonempty head => simp [callEvent, hpc] at he
      | loadedSlot head r => simp [callEvent, hpc] at he
  | popStoreHead =>
      cases hpc : s.consumer with
      | loadedSlot head r =>
          -- the slot is not null, so the call is a pop and never an empty one
          obtain ⟨p, rest, rfl, -⟩ := h.popping hpc
          simp only [callEvent, hpc, Option.some.injEq] at he
          obtain rfl := he
          trivial
      | idle => simp [callEvent, hpc] at he
      | loadedHead head => simp [callEvent, hpc] at he
      | nonempty head => simp [callEvent, hpc] at he
  | loadTail p => cases he
  | storeSlot => cases he
  | popLoadHead => cases he
  | popLoadSlot => cases he

/-- `pushed` and `popped` list the packets of the pushes and pops that took effect. -/
theorem spscStep_lists (s : Handoff) (op : SpscOp) :
    (spscStep s op).pushed = s.pushed ++ ((callEvent s op).bind Event.pushed).toList ∧
      (spscStep s op).popped = s.popped ++ ((callEvent s op).bind Event.popped).toList := by
  have hkeep : s.pushed = s.pushed ++ [] ∧ s.popped = s.popped ++ [] :=
    ⟨(List.append_nil _).symm, (List.append_nil _).symm⟩
  cases op with
  | loadTail p =>
      simp only [spscStep, SpscOp.access, handoffStep, callEvent]
      split
      · exact hkeep
      · exact hkeep
  | loadHead =>
      simp only [spscStep, SpscOp.access, handoffStep, callEvent]
      cases s.producer .reclaim with
      | loadedTail p tail =>
          by_cases hfull : (tail + 1) &&& kFifoMask = s.fifo.head
          · simp only [hfull, if_true]
            exact hkeep
          · simp only [hfull, if_false]
            exact hkeep
      | idle => exact hkeep
      | room p tail => exact hkeep
      | stored p tail => exact hkeep
  | storeSlot =>
      simp only [spscStep, SpscOp.access, handoffStep, callEvent]
      split
      · exact hkeep
      · exact hkeep
  | storeTail =>
      simp only [spscStep, SpscOp.access, handoffStep, callEvent]
      cases s.producer .reclaim with
      | stored p tail => exact ⟨rfl, hkeep.2⟩
      | idle => exact hkeep
      | loadedTail p tail => exact hkeep
      | room p tail => exact hkeep
  | popLoadHead =>
      simp only [spscStep, SpscOp.access, handoffStep, callEvent]
      split
      · exact hkeep
      · exact hkeep
  | popLoadTail =>
      simp only [spscStep, SpscOp.access, handoffStep, callEvent]
      cases s.consumer with
      | loadedHead head =>
          by_cases hempty : head = s.fifo.tail
          · simp only [hempty, if_true]
            exact hkeep
          · simp only [hempty, if_false]
            exact hkeep
      | idle => exact hkeep
      | nonempty head => exact hkeep
      | loadedSlot head r => exact hkeep
  | popLoadSlot =>
      simp only [spscStep, SpscOp.access, handoffStep, callEvent]
      split
      · exact hkeep
      · exact hkeep
  | popStoreHead =>
      simp only [spscStep, SpscOp.access, handoffStep, callEvent]
      cases s.consumer with
      | loadedSlot head r =>
          cases r with
          | none => exact ⟨hkeep.1, rfl⟩
          | some p => exact ⟨hkeep.1, rfl⟩
      | idle => exact hkeep
      | loadedHead head => exact hkeep
      | nonempty head => exact hkeep

/-- An access keeps the order of the packets. -/
theorem SpscInv.order (h : SpscInv s q) (op : SpscOp) :
    q ++ ((callEvent s op).bind Event.pushed).toList =
      ((callEvent s op).bind Event.popped).toList ++ (Dext.spscStep s op).queued := by
  have hafter := (h.spscStep op).handoff.order
  rw [(spscStep_lists s op).1, (spscStep_lists s op).2, h.handoff.order, List.append_assoc,
    List.append_assoc] at hafter
  exact List.append_cancel_left hafter

/-- **Every access has the effect of the call it is recorded as.** -/
theorem SpscInv.effect (h : SpscInv s q) (op : SpscOp) :
    Effect kFifoMask q (callEvent s op) (Dext.spscStep s op).queued := by
  have horder := h.order op
  cases he : callEvent s op with
  | none =>
      rw [he] at horder
      exact (List.append_nil q).symm.trans horder
  | some e =>
      rw [he] at horder
      exact Step.of_order (h.guard he) horder

/-! ### Whole runs -/

/-- **The FIFO refines the bounded queue.**  The calls of every run, in the order in which they take
effect, are calls of a bounded queue with `kFifoMask` places, which at the end holds what the FIFO
holds. -/
theorem fifo_refines_boundedQueue (ops : List SpscOp) :
    ∃ q, Run kFifoMask [] (record spscStep callEvent Handoff.init ops) q ∧
      Holds (exec spscStep Handoff.init ops).fifo q := by
  have hsim : ∀ s op q, SpscInv s q →
      ∃ q', Effect kFifoMask q (callEvent s op) q' ∧ SpscInv (spscStep s op) q' :=
    fun s op q h => ⟨_, h.effect op, h.spscStep op⟩
  obtain ⟨q, hrun, hq⟩ := run_record hsim SpscInv.init
  exact ⟨q, hrun, hq.handoff.holds⟩

/-! ### The results of the calls -/

/-- What the results of the calls say about the queue: a push that fails does so at its read of
`head`, with 2047 packets queued; a pop that returns null does so at its read of `tail`, with none
queued. -/
def ResultsSound (s : Handoff) (op : SpscOp) : Prop :=
  (PushFails s op → op = .loadHead ∧ s.queued.length = 2047) ∧
    (PopReturnsNull s op → op = .popLoadTail ∧ s.queued = [])

/-- A push ends where it finds the FIFO full, or with the store of the tail. -/
theorem push_ends (hbusy : s.producer .reclaim ≠ .idle)
    (hidle : (spscStep s op).producer .reclaim = .idle) :
    (op = .loadHead ∧ ∃ p tail, s.producer .reclaim = .loadedTail p tail ∧
        (tail + 1) &&& kFifoMask = s.fifo.head) ∨
      op = .storeTail ∧ ∃ p tail, s.producer .reclaim = .stored p tail := by
  have hpush : op.pushes = true := by
    by_contra hpop
    rw [(spscStep_of_pop (eq_false_of_ne_true hpop)).1] at hidle
    exact hbusy hidle
  cases op with
  | loadHead =>
      cases hpc : s.producer .reclaim with
      | loadedTail p tail =>
          by_cases hfull : (tail + 1) &&& kFifoMask = s.fifo.head
          · exact .inl ⟨rfl, p, tail, rfl, hfull⟩
          · simp [spscStep, SpscOp.access, handoffStep, hpc, hfull, Handoff.setPush] at hidle
      | idle => exact absurd hpc hbusy
      | room p tail => simp [spscStep, SpscOp.access, handoffStep, hpc] at hidle
      | stored p tail => simp [spscStep, SpscOp.access, handoffStep, hpc] at hidle
  | storeTail =>
      cases hpc : s.producer .reclaim with
      | stored p tail => exact .inr ⟨rfl, p, tail, rfl⟩
      | idle => exact absurd hpc hbusy
      | loadedTail p tail => simp [spscStep, SpscOp.access, handoffStep, hpc] at hidle
      | room p tail => simp [spscStep, SpscOp.access, handoffStep, hpc] at hidle
  | loadTail p =>
      simp only [spscStep, SpscOp.access, handoffStep, hbusy, false_and, if_false] at hidle
  | storeSlot =>
      cases hpc : s.producer .reclaim with
      | room p tail =>
          simp [spscStep, SpscOp.access, handoffStep, hpc, Handoff.setPush] at hidle
      | idle => exact absurd hpc hbusy
      | loadedTail p tail => simp [spscStep, SpscOp.access, handoffStep, hpc] at hidle
      | stored p tail => simp [spscStep, SpscOp.access, handoffStep, hpc] at hidle
  | popLoadHead => cases hpush
  | popLoadTail => cases hpush
  | popLoadSlot => cases hpush
  | popStoreHead => cases hpush

/-- A pop ends where it finds the FIFO empty, or with the store of the head. -/
theorem pop_ends (hbusy : s.consumer ≠ .idle) (hidle : (spscStep s op).consumer = .idle) :
    (op = .popLoadTail ∧ ∃ head, s.consumer = .loadedHead head ∧ head = s.fifo.tail) ∨
      op = .popStoreHead ∧ ∃ head r, s.consumer = .loadedSlot head r := by
  have hpop : op.pushes = false := by
    apply eq_false_of_ne_true
    intro hpush
    rw [spscStep_of_push hpush] at hidle
    exact hbusy hidle
  cases op with
  | popLoadTail =>
      cases hpc : s.consumer with
      | loadedHead head =>
          by_cases hempty : head = s.fifo.tail
          · exact .inl ⟨rfl, head, rfl, hempty⟩
          · simp [spscStep, SpscOp.access, handoffStep, hpc, hempty] at hidle
      | idle => exact absurd hpc hbusy
      | nonempty head => simp [spscStep, SpscOp.access, handoffStep, hpc] at hidle
      | loadedSlot head r => simp [spscStep, SpscOp.access, handoffStep, hpc] at hidle
  | popStoreHead =>
      cases hpc : s.consumer with
      | loadedSlot head r => exact .inr ⟨rfl, head, r, rfl⟩
      | idle => exact absurd hpc hbusy
      | loadedHead head => simp [spscStep, SpscOp.access, handoffStep, hpc] at hidle
      | nonempty head => simp [spscStep, SpscOp.access, handoffStep, hpc] at hidle
  | popLoadHead =>
      simp only [spscStep, SpscOp.access, handoffStep] at hidle
      exact absurd hidle hbusy
  | popLoadSlot =>
      simp only [spscStep, SpscOp.access, handoffStep] at hidle
      split at hidle
      · cases hidle
      · exact absurd hidle hbusy
  | loadTail p => cases hpop
  | loadHead => cases hpop
  | storeSlot => cases hpop
  | storeTail => cases hpop

/-- A push fails on a full queue only. -/
theorem SpscInv.pushFails (h : SpscInv s q) (hfails : PushFails s op) :
    op = .loadHead ∧ q.length = kFifoMask := by
  obtain ⟨hbusy, hidle, hsame⟩ := hfails
  rcases push_ends hbusy hidle with ⟨hop, p, tail, hpc, hfull⟩ | ⟨rfl, p, tail, hpc⟩
  · exact ⟨hop, (h.full_iff hpc).mp hfull⟩
  · -- the store of the tail pushes the packet
    rw [(spscStep_lists s _).1] at hsame
    simp [callEvent, hpc, Event.pushed] at hsame

/-- A pop returns null on an empty queue only. -/
theorem SpscInv.popReturnsNull (h : SpscInv s q) (hnull : PopReturnsNull s op) :
    op = .popLoadTail ∧ q = [] := by
  obtain ⟨hbusy, hidle, hsame⟩ := hnull
  rcases pop_ends hbusy hidle with ⟨hop, head, hpc, hempty⟩ | ⟨rfl, head, r, hpc⟩
  · exact ⟨hop, (h.empty_iff hpc).mp hempty⟩
  · -- a pop that found a packet has not read a null pointer
    obtain ⟨p, rest, rfl, -⟩ := h.popping hpc
    rw [(spscStep_lists s _).2] at hsame
    simp [callEvent, hpc, Event.popped] at hsame

theorem SpscInv.resultsSound (h : SpscInv s q) (op : SpscOp) : ResultsSound s op := by
  rw [ResultsSound, h.queued_eq]
  exact ⟨h.pushFails, h.popReturnsNull⟩

/-- **The FIFO is a correct bounded queue.**  For every interleaving of the loads and stores of one
producer and one consumer: the packets the pops returned are an initial part of the packets pushed;
a push returns false only if 2047 packets are queued when it reads `head`; and a pop returns null
only if none is queued when it reads `tail`. -/
theorem fifo_is_bounded_queue (ops : List SpscOp) :
    (exec spscStep Handoff.init ops).popped <+: (exec spscStep Handoff.init ops).pushed ∧
      Along spscStep ResultsSound Handoff.init ops := by
  refine ⟨?_, ?_⟩
  · obtain ⟨q, hrun, -⟩ := fifo_refines_boundedQueue ops
    rw [view_record (fun s op => (spscStep_lists s op).1),
      view_record (fun s op => (spscStep_lists s op).2)]
    exact hrun.pops_isPrefix
  · have hsound : ∀ s op, (∃ q, SpscInv s q) → ResultsSound s op := by
      rintro s op ⟨q, h⟩
      exact h.resultsSound op
    have hstep : ∀ s op, (∃ q, SpscInv s q) → ∃ q, SpscInv (spscStep s op) q := by
      rintro s op ⟨q, h⟩
      exact ⟨_, h.spscStep op⟩
    exact along_of_invariant hsound hstep ⟨[], SpscInv.init⟩

end Rtl812x.Dext
