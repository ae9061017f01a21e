import Mathlib.Data.List.Count
import Rtl812x.Lib.Runs
import Rtl812x.Dext.Fifo

/-!
# One completion FIFO, two producers

A transmit completion FIFO at the granularity of the loads and stores of `fifoPush` and `fifoPop`,
under sequential consistency.  Two threads push: `txDequeueAction` under `txLock` (packets it
rejects) and `txRingReclaim(false)` without it (packets it retires); `txEnqueueAction` pops.

The FIFO is written for a single producer.  Two pushes that both read the tail before either
stores it write the same slot, and one packet is gone (`both_producers_lose_a_packet`).

* `Handoff`, `handoffStep` — the shared memory, where each thread is, and one access;
* `Alone` — a push that finds room read the current tail, and no other push is about to store;
* `handoff_loses_nothing` — **in every interleaving whose pushes are alone, no packet is lost or
  popped twice.**
-/

namespace Rtl812x.Dext

open Runs

/-! ### Threads and memory -/

/-- The two functions that push. -/
inductive Producer where
  | dequeue | reclaim
deriving DecidableEq, Repr

/-- Where a thread is in `fifoPush`, with the packet and the tail it read. -/
inductive PushPc where
  | idle
  /-- `tail` is read -/
  | loadedTail (p tail : ℕ)
  /-- `head` is read and there is room -/
  | room (p tail : ℕ)
  /-- the slot is written -/
  | stored (p tail : ℕ)
deriving DecidableEq, Repr

/-- Where the consumer is in `fifoPop`. -/
inductive PopPc where
  | idle
  /-- `head` is read -/
  | loadedHead (head : ℕ)
  /-- `tail` is read and there is a packet -/
  | nonempty (head : ℕ)
  /-- the slot is read -/
  | loadedSlot (head : ℕ) (p : Option ℕ)
deriving DecidableEq, Repr

/-- The FIFO, the threads, the lock, and what was pushed and popped so far, oldest first. -/
structure Handoff where
  fifo : PacketFifo
  producer : Producer → PushPc
  consumer : PopPc
  txLock : Bool
  pushed : List ℕ
  popped : List ℕ

def Handoff.init : Handoff where
  fifo := PacketFifo.empty
  producer := fun _ => .idle
  consumer := .idle
  txLock := false
  pushed := []
  popped := []

/-- One access of one thread. -/
inductive HandoffOp where
  | lock
  | unlock
  | loadTail (w : Producer) (p : ℕ)
  | loadHead (w : Producer)
  | storeSlot (w : Producer)
  | storeTail (w : Producer)
  | popLoadHead
  | popLoadTail
  | popLoadSlot
  | popStoreHead
deriving DecidableEq, Repr

def Handoff.setPush (s : Handoff) (w : Producer) (pc : PushPc) : Handoff :=
  { s with producer := Function.update s.producer w pc }

/-- One step; an access that is not the next one of its thread does nothing. -/
def handoffStep (s : Handoff) : HandoffOp → Handoff
  | .lock => { s with txLock := true }
  | .unlock => if s.producer .dequeue = .idle then { s with txLock := false } else s
  | .loadTail w p =>
    if s.producer w = .idle ∧ (w = .dequeue → s.txLock = true) then
      s.setPush w (.loadedTail p s.fifo.tail)
    else s
  | .loadHead w =>
    match s.producer w with
    | .loadedTail p tail =>
      if (tail + 1) &&& kFifoMask = s.fifo.head then s.setPush w .idle
      else s.setPush w (.room p tail)
    | _ => s
  | .storeSlot w =>
    match s.producer w with
    | .room p tail =>
      { s.setPush w (.stored p tail) with
        fifo := { s.fifo with slots := Function.update s.fifo.slots tail (some p) } }
    | _ => s
  | .storeTail w =>
    match s.producer w with
    | .stored p tail =>
      { s.setPush w .idle with
        fifo := { s.fifo with tail := (tail + 1) &&& kFifoMask }
        pushed := s.pushed ++ [p] }
    | _ => s
  | .popLoadHead =>
    match s.consumer with
    | .idle => { s with consumer := .loadedHead s.fifo.head }
    | _ => s
  | .popLoadTail =>
    match s.consumer with
    | .loadedHead head =>
      if head = s.fifo.tail then { s with consumer := .idle }
      else { s with consumer := .nonempty head }
    | _ => s
  | .popLoadSlot =>
    match s.consumer with
    | .nonempty head => { s with consumer := .loadedSlot head (s.fifo.slots head) }
    | _ => s
  | .popStoreHead =>
    match s.consumer with
    | .loadedSlot head p =>
      { s with
        consumer := .idle
        fifo := { s.fifo with head := (head + 1) &&& kFifoMask }
        popped := s.popped ++ p.toList }
    | _ => s

/-! ### The property and the condition -/

/-- No packet is popped more often than it was pushed, and what was pushed and not popped is still
in the FIFO. -/
structure NoneLost (s : Handoff) : Prop where
  popped_once : ∀ p, s.popped.count p ≤ s.pushed.count p
  not_overwritten : ∀ p, s.pushed.count p ≤ s.popped.count p + s.fifo.contents.count (some p)

/-- The thread has found room and not yet published its packet. -/
def PushPc.storing : PushPc → Bool
  | .room .. | .stored .. => true
  | _ => false

/-- A push that finds room has the FIFO to itself: the tail it read is current, and no other push
is between finding room and storing the tail. -/
def Alone (s : Handoff) : HandoffOp → Prop
  | .loadHead w => ∀ p tail, s.producer w = .loadedTail p tail →
      (tail + 1) &&& kFifoMask ≠ s.fifo.head →
        tail = s.fifo.tail ∧ ∀ w', (s.producer w').storing = false
  | _ => True

/-! ### The invariant -/

/-- What a thread inside a push knows. -/
def PushOk (f : PacketFifo) (l : List ℕ) : PushPc → Prop
  | .room _ tail => tail = f.tail ∧ l.length < kFifoMask
  | .stored p tail => tail = f.tail ∧ l.length < kFifoMask ∧ f.slots tail = some p
  | _ => True

/-- What the consumer inside a pop knows. -/
def PopOk (f : PacketFifo) (l : List ℕ) : PopPc → Prop
  | .idle => True
  | .loadedHead head => head = f.head
  | .nonempty head => head = f.head ∧ l ≠ []
  | .loadedSlot head p => head = f.head ∧ ∃ q rest, p = some q ∧ l = q :: rest

/-- The FIFO holds `l`, which is what was pushed and not popped; at most one push is storing. -/
structure HandoffInv (s : Handoff) (l : List ℕ) : Prop where
  holds : Holds s.fifo l
  order : s.pushed = s.popped ++ l
  push_ok : ∀ w, PushOk s.fifo l (s.producer w)
  single : ∀ w w', (s.producer w).storing = true → (s.producer w').storing = true → w = w'
  pop_ok : PopOk s.fifo l s.consumer

variable {s : Handoff} {l : List ℕ}

theorem HandoffInv.init : HandoffInv Handoff.init [] where
  holds := holds_empty
  order := rfl
  push_ok _ := trivial
  single _ _ h := by cases h
  pop_ok := trivial

theorem HandoffInv.noneLost (h : HandoffInv s l) : NoneLost s where
  popped_once p := by
    rw [h.order, List.count_append]
    omega
  not_overwritten p := by
    rw [h.order, List.count_append, h.holds.contents_eq,
      List.count_map_of_injective _ _ (Option.some_injective ℕ)]

/-- A thread that is not storing knows nothing that could go wrong. -/
theorem PushOk.of_not_storing {f : PacketFifo} {pc : PushPc} (h : pc.storing = false) :
    PushOk f l pc := by
  cases pc with
  | idle => trivial
  | loadedTail p tail => trivial
  | room p tail => cases h
  | stored p tail => cases h

/-- Moving one producer, with the FIFO as it is. -/
theorem HandoffInv.setPush (h : HandoffInv s l) (w : Producer) {pc : PushPc}
    (hok : PushOk s.fifo l pc)
    (hsingle : pc.storing = true → ∀ w', w' ≠ w → (s.producer w').storing = false) :
    HandoffInv (s.setPush w pc) l where
  holds := h.holds
  order := h.order
  push_ok w' := by
    simp only [Handoff.setPush]
    by_cases hw : w' = w
    · subst hw
      rw [Function.update_self]
      exact hok
    · rw [Function.update_of_ne hw]
      exact h.push_ok w'
  single w1 w2 h1 h2 := by
    simp only [Handoff.setPush] at h1 h2
    by_cases hw1 : w1 = w
    · subst hw1
      by_cases hw2 : w2 = w1
      · exact hw2.symm
      · rw [Function.update_self] at h1
        rw [Function.update_of_ne hw2, hsingle h1 w2 hw2] at h2
        cases h2
    · rw [Function.update_of_ne hw1] at h1
      by_cases hw2 : w2 = w
      · subst hw2
        rw [Function.update_self] at h2
        rw [hsingle h2 w1 hw1] at h1
        cases h1
      · rw [Function.update_of_ne hw2] at h2
        exact h.single w1 w2 h1 h2
  pop_ok := h.pop_ok

/-- While one push is storing, no other is. -/
theorem HandoffInv.others_not_storing (h : HandoffInv s l) {w : Producer}
    (hw : (s.producer w).storing = true) (w' : Producer) (hne : w' ≠ w) :
    (s.producer w').storing = false := by
  cases hs : (s.producer w').storing with
  | false => rfl
  | true => exact absurd (h.single w' w hs hw) hne

/-- The storing push changes the FIFO; the others know nothing about it. -/
theorem HandoffInv.pushOk_update (h : HandoffInv s l) {w : Producer} {f : PacketFifo}
    {l' : List ℕ} {pc : PushPc} (hw : (s.producer w).storing = true) (hok : PushOk f l' pc)
    (w' : Producer) : PushOk f l' (Function.update s.producer w pc w') := by
  by_cases hne : w' = w
  · subst hne
    rw [Function.update_self]
    exact hok
  · rw [Function.update_of_ne hne]
    exact PushOk.of_not_storing (h.others_not_storing hw w' hne)

/-- At most one push stays storing when the storing one moves on. -/
theorem HandoffInv.single_update (h : HandoffInv s l) {w : Producer} {pc : PushPc}
    (hw : (s.producer w).storing = true) (w1 w2 : Producer)
    (h1 : (Function.update s.producer w pc w1).storing = true)
    (h2 : (Function.update s.producer w pc w2).storing = true) : w1 = w2 := by
  have hall : ∀ w', (Function.update s.producer w pc w').storing = true → w' = w := by
    intro w' h'
    by_contra hne
    rw [Function.update_of_ne hne, h.others_not_storing hw w' hne] at h'
    cases h'
  rw [hall w1 h1, hall w2 h2]

/-! ### Each access keeps it -/

theorem HandoffInv.storeSlot (h : HandoffInv s l) {w : Producer} {p tail : ℕ}
    (hpc : s.producer w = .room p tail) :
    HandoffInv { s.setPush w (.stored p tail) with
      fifo := { s.fifo with slots := Function.update s.fifo.slots tail (some p) } } l := by
  have hw : (s.producer w).storing = true := by rw [hpc]; rfl
  have hok := h.push_ok w
  rw [hpc] at hok
  obtain ⟨rfl, hroom⟩ := hok
  refine ⟨h.holds.store_slot p, h.order, ?_, h.single_update hw, ?_⟩
  · exact h.pushOk_update hw ⟨rfl, hroom, Function.update_self ..⟩
  · exact h.pop_ok

theorem HandoffInv.storeTail (h : HandoffInv s l) {w : Producer} {p tail : ℕ}
    (hpc : s.producer w = .stored p tail) :
    HandoffInv { s.setPush w .idle with
      fifo := { s.fifo with tail := (tail + 1) &&& kFifoMask }
      pushed := s.pushed ++ [p] } (l ++ [p]) := by
  have hw : (s.producer w).storing = true := by rw [hpc]; rfl
  have hok := h.push_ok w
  rw [hpc] at hok
  obtain ⟨rfl, hroom, hslot⟩ := hok
  refine ⟨h.holds.store_tail hroom hslot, ?_, ?_, h.single_update hw, ?_⟩
  · show s.pushed ++ [p] = s.popped ++ (l ++ [p])
    rw [h.order, List.append_assoc]
  · exact h.pushOk_update hw trivial
  · have hpop := h.pop_ok
    show PopOk _ (l ++ [p]) s.consumer
    cases hc : s.consumer with
    | idle => trivial
    | loadedHead head =>
        rw [hc] at hpop
        exact hpop
    | nonempty head => exact ⟨(hc ▸ hpop).1, by simp⟩
    | loadedSlot head q =>
        rw [hc] at hpop
        obtain ⟨hhead, q', rest, hq, hl⟩ := hpop
        exact ⟨hhead, q', rest ++ [p], hq, by rw [hl, List.cons_append]⟩

theorem HandoffInv.popStoreHead (h : HandoffInv s l) {head : ℕ} {r : Option ℕ}
    (hpc : s.consumer = .loadedSlot head r) :
    ∃ l', HandoffInv { s with
      consumer := .idle
      fifo := { s.fifo with head := (head + 1) &&& kFifoMask }
      popped := s.popped ++ r.toList } l' := by
  have hpop := h.pop_ok
  rw [hpc] at hpop
  obtain ⟨rfl, p, rest, rfl, rfl⟩ := hpop
  refine ⟨rest, h.holds.store_head, ?_, ?_, h.single, trivial⟩
  · show s.pushed = s.popped ++ [p] ++ rest
    rw [h.order, List.append_assoc, List.singleton_append]
  · intro w
    have hok := h.push_ok w
    cases hw : s.producer w with
    | idle => trivial
    | loadedTail q tail => trivial
    | room q tail =>
        rw [hw] at hok
        obtain ⟨htail, hroom⟩ := hok
        exact ⟨htail, by rw [List.length_cons] at hroom; omega⟩
    | stored q tail =>
        rw [hw] at hok
        obtain ⟨htail, hroom, hslot⟩ := hok
        exact ⟨htail, by rw [List.length_cons] at hroom; omega, hslot⟩

/-- A consumer access that changes nothing but where the consumer is. -/
theorem HandoffInv.setPop (h : HandoffInv s l) {pc : PopPc} (hok : PopOk s.fifo l pc) :
    HandoffInv { s with consumer := pc } l :=
  ⟨h.holds, h.order, h.push_ok, h.single, hok⟩

/-- **Every access keeps the invariant**, pushes that find room being alone. -/
theorem HandoffInv.handoffStep (op : HandoffOp) (h : HandoffInv s l) (hop : Alone s op) :
    ∃ l', HandoffInv (handoffStep s op) l' := by
  cases op with
  | lock => exact ⟨l, h.holds, h.order, h.push_ok, h.single, h.pop_ok⟩
  | unlock =>
      simp only [Dext.handoffStep]
      split
      · exact ⟨l, h.holds, h.order, h.push_ok, h.single, h.pop_ok⟩
      · exact ⟨l, h⟩
  | loadTail w p =>
      simp only [Dext.handoffStep]
      split
      · exact ⟨l, h.setPush w trivial nofun⟩
      · exact ⟨l, h⟩
  | loadHead w =>
      simp only [Dext.handoffStep]
      split
      · rename_i p tail hpc
        split
        · exact ⟨l, h.setPush w trivial nofun⟩
        · rename_i hne
          obtain ⟨rfl, hothers⟩ := hop p tail hpc hne
          have hroom : l.length < kFifoMask := by
            have hlen := h.holds.length_lt
            rw [h.holds.next_eq_head_iff] at hne
            simp only [kFifoMask] at hne ⊢
            omega
          exact ⟨l, h.setPush w ⟨rfl, hroom⟩ fun _ w' _ => hothers w'⟩
      · exact ⟨l, h⟩
  | storeSlot w =>
      simp only [Dext.handoffStep]
      split
      · rename_i p tail hpc
        exact ⟨l, h.storeSlot hpc⟩
      · exact ⟨l, h⟩
  | storeTail w =>
      simp only [Dext.handoffStep]
      split
      · rename_i p tail hpc
        exact ⟨_, h.storeTail hpc⟩
      · exact ⟨l, h⟩
  | popLoadHead =>
      simp only [Dext.handoffStep]
      split
      · exact ⟨l, h.setPop (show PopOk s.fifo l (.loadedHead s.fifo.head) from rfl)⟩
      · exact ⟨l, h⟩
  | popLoadTail =>
      simp only [Dext.handoffStep]
      split
      · rename_i head hpc
        have hpop := h.pop_ok
        rw [hpc] at hpop
        split
        · exact ⟨l, h.setPop trivial⟩
        · rename_i hne
          refine ⟨l, h.setPop ⟨hpop, ?_⟩⟩
          rintro rfl
          exact hne (hpop.trans (h.holds.head_eq_tail_iff.mpr rfl))
      · exact ⟨l, h⟩
  | popLoadSlot =>
      simp only [Dext.handoffStep]
      split
      · rename_i head hpc
        have hpop := h.pop_ok
        rw [hpc] at hpop
        obtain ⟨rfl, hne⟩ := hpop
        obtain ⟨p, rest, rfl⟩ := List.exists_cons_of_ne_nil hne
        exact ⟨_, h.setPop ⟨rfl, p, rest, h.holds.head_slot, rfl⟩⟩
      · exact ⟨l, h⟩
  | popStoreHead =>
      simp only [Dext.handoffStep]
      split
      · rename_i head p hpc
        exact h.popStoreHead hpc
      · exact ⟨l, h⟩

/-- **No completion is lost.**  In every interleaving in which a push that finds room read the
current tail while no other push was about to store, every state reached has popped each packet
at most as often as it was pushed, and still holds every packet pushed and not popped. -/
theorem handoff_loses_nothing (ops : List HandoffOp)
    (hrun : Along handoffStep Alone Handoff.init ops) :
    NoneLost (exec handoffStep Handoff.init ops) := by
  have hstep : ∀ s op, (∃ l, HandoffInv s l) → Alone s op → ∃ l, HandoffInv (handoffStep s op) l := by
    rintro s op ⟨l, h⟩ hop
    exact h.handoffStep op hop
  obtain ⟨l, h⟩ := invariant_along hstep ⟨[], HandoffInv.init⟩ hrun
  exact h.noneLost

/-- Both producers read the tail, then both finish: packet 1 is rejected, packet 2 retired. -/
def bothProducers : List HandoffOp :=
  [.lock, .loadTail .dequeue 1, .loadTail .reclaim 2, .loadHead .dequeue, .loadHead .reclaim,
    .storeSlot .dequeue, .storeTail .dequeue, .storeSlot .reclaim, .storeTail .reclaim]

/-- **Two producers lose a packet**: both pushes succeed and write the same slot. -/
theorem both_producers_lose_a_packet :
    (exec handoffStep Handoff.init bothProducers).pushed = [1, 2] ∧
      ¬ NoneLost (exec handoffStep Handoff.init bothProducers) := by
  refine ⟨by decide, ?_⟩
  intro h
  exact absurd (h.not_overwritten 1) (by decide)

/-- Two pushes one after the other, and a pop. -/
theorem handoff_loses_nothing_in_turn :
    NoneLost (exec handoffStep Handoff.init
      [.lock, .loadTail .dequeue 1, .loadHead .dequeue, .storeSlot .dequeue, .storeTail .dequeue,
        .loadTail .reclaim 2, .loadHead .reclaim, .storeSlot .reclaim, .storeTail .reclaim,
        .popLoadHead, .popLoadTail, .popLoadSlot, .popStoreHead]) := by
  refine handoff_loses_nothing _ ⟨trivial, trivial, ?_, trivial, trivial, trivial, ?_, trivial,
    trivial, trivial, trivial, trivial, trivial, trivial⟩
  · intro p tail hpc _
    cases hpc
    refine ⟨rfl, ?_⟩
    intro w
    cases w <;> rfl
  · intro p tail hpc _
    cases hpc
    refine ⟨rfl, ?_⟩
    intro w
    cases w <;> rfl

end Rtl812x.Dext
