import Rtl812x.Lib.Runs

/-!
# Bounded queues

The sequential bounded queue, as what a call on it answers, and the rule by which a concurrent
program is shown to behave like one.

A queue of capacity `cap` holds a list, oldest element first.  `Event` is a call together with its
answer; `Step cap q e q'` says that a queue that holds `q` may answer `e` and then holds `q'`: a push
is refused exactly when `cap` elements are queued, a pop finds nothing exactly when none is.

* `Step`, `Run` — one call and a sequence of calls; `Step.of_order` — a call by its guard and the
  order of the elements;
* `Run.order` — what was queued and pushed is what was popped and is queued, in that order;
  `Run.pops_isPrefix` — **from an empty queue, what is popped is an initial part of what is pushed**;
* `record`, `run_record` — **the simulation rule**: a machine whose every step either is invisible or
  takes effect as one call is, over whole runs, a bounded queue;
* `view_record` — a list the machine keeps of the elements its calls queued or took.
-/

namespace BoundedQueue

open Runs

variable {α : Type*}

/-- A call on a queue with its answer. -/
inductive Event (α : Type*) where
  /-- the element is queued -/
  | push (a : α)
  /-- a push is refused -/
  | full
  /-- the oldest element is taken -/
  | pop (a : α)
  /-- a pop finds nothing -/
  | empty

/-- What a queue of capacity `cap` may answer. -/
inductive Step (cap : ℕ) : List α → Event α → List α → Prop
  | push {q : List α} (a : α) (hroom : q.length < cap) : Step cap q (.push a) (q ++ [a])
  | full {q : List α} (hfull : q.length = cap) : Step cap q .full q
  | pop (a : α) (q : List α) : Step cap (a :: q) (.pop a) q
  | empty : Step cap [] .empty []

/-- A sequence of calls. -/
def Run (cap : ℕ) : List α → List (Event α) → List α → Prop
  | q, [], q' => q = q'
  | q, e :: es, q' => ∃ m, Step cap q e m ∧ Run cap m es q'

/-- The element a call queued. -/
def Event.pushed : Event α → Option α
  | .push a => some a
  | _ => none

/-- The element a call took. -/
def Event.popped : Event α → Option α
  | .pop a => some a
  | _ => none

/-- The elements queued, first one first. -/
def pushes (es : List (Event α)) : List α := es.filterMap Event.pushed

/-- The elements taken, first one first. -/
def pops (es : List (Event α)) : List α := es.filterMap Event.popped

variable {cap : ℕ} {q q' : List α} {e : Event α} {es : List (Event α)}

/-- One call keeps the order of the elements. -/
theorem Step.order (h : Step cap q e q') : q ++ e.pushed.toList = e.popped.toList ++ q' := by
  cases h with
  | push a hroom => rfl
  | full hfull => exact List.append_nil _
  | pop a q => exact List.append_nil _
  | empty => rfl

/-- What a queue must hold for the answer to be right, the order of its elements apart. -/
def Guard (cap : ℕ) (q : List α) : Event α → Prop
  | .push _ => q.length < cap
  | .full => q.length = cap
  | .pop _ => True
  | .empty => q = []

/-- A guarded answer that keeps the order of the elements is one of the queue's. -/
theorem Step.of_order (hguard : Guard cap q e)
    (horder : q ++ e.pushed.toList = e.popped.toList ++ q') : Step cap q e q' := by
  cases e with
  | push a =>
      obtain rfl : q ++ [a] = q' := horder
      exact .push a hguard
  | full =>
      obtain rfl : q = q' := (List.append_nil q).symm.trans horder
      exact .full hguard
  | pop a =>
      obtain rfl : q = a :: q' := (List.append_nil q).symm.trans horder
      exact .pop a q'
  | empty =>
      obtain rfl : q = [] := hguard
      obtain rfl : [] = q' := horder
      exact .empty

theorem pushes_cons (e : Event α) (es : List (Event α)) :
    pushes (e :: es) = e.pushed.toList ++ pushes es := by
  cases e <;> rfl

theorem pops_cons (e : Event α) (es : List (Event α)) :
    pops (e :: es) = e.popped.toList ++ pops es := by
  cases e <;> rfl

/-- **First in, first out**, over a sequence of calls. -/
theorem Run.order (h : Run cap q es q') : q ++ pushes es = pops es ++ q' := by
  induction es generalizing q with
  | nil =>
      cases h
      exact List.append_nil _
  | cons e es ih =>
      obtain ⟨m, hstep, hrun⟩ := h
      calc q ++ pushes (e :: es)
          = (q ++ e.pushed.toList) ++ pushes es := by rw [pushes_cons, List.append_assoc]
        _ = e.popped.toList ++ (m ++ pushes es) := by rw [hstep.order, List.append_assoc]
        _ = e.popped.toList ++ (pops es ++ q') := by rw [ih hrun]
        _ = pops (e :: es) ++ q' := by rw [pops_cons, List.append_assoc]

/-- **What is popped is an initial part of what is pushed.** -/
theorem Run.pops_isPrefix (h : Run cap [] es q') : pops es <+: pushes es :=
  ⟨q', h.order.symm⟩

/-! ### Machines that behave like a queue -/

variable {σ β : Type*} {step : σ → β → σ} {event : σ → β → Option (Event α)}

/-- The calls that take effect in a run, in the order in which they do. -/
def record (step : σ → β → σ) (event : σ → β → Option (Event α)) : σ → List β → List (Event α)
  | _, [] => []
  | s, b :: bs => (event s b).toList ++ record step event (step s b) bs

/-- What a step does to the queue a state stands for: nothing, or one call. -/
def Effect (cap : ℕ) (q : List α) : Option (Event α) → List α → Prop
  | none, q' => q = q'
  | some e, q' => Step cap q e q'

/-- **The simulation rule.**  If the state stands for a queue and every step has the effect of the
call it is recorded as, a run is a sequence of calls of a bounded queue. -/
theorem run_record {R : σ → List α → Prop}
    (hsim : ∀ s b q, R s q → ∃ q', Effect cap q (event s b) q' ∧ R (step s b) q') :
    ∀ {s : σ} {bs : List β} {q : List α}, R s q →
      ∃ q', Run cap q (record step event s bs) q' ∧ R (exec step s bs) q' := by
  intro s bs
  induction bs generalizing s with
  | nil => exact fun {q} h => ⟨q, rfl, h⟩
  | cons b bs ih =>
      intro q h
      obtain ⟨m, heff, hm⟩ := hsim s b q h
      obtain ⟨q', hrun, hq'⟩ := ih hm
      rw [record]
      cases he : event s b with
      | none =>
          rw [he] at heff
          cases heff
          exact ⟨q', hrun, hq'⟩
      | some e =>
          rw [he] at heff
          exact ⟨q', ⟨m, heff, hrun⟩, hq'⟩

/-- A list that grows by what each call queued, or took, is what the recorded calls did. -/
theorem view_record {view : σ → List α} {f : Event α → Option α}
    (hview : ∀ s b, view (step s b) = view s ++ ((event s b).bind f).toList) (s : σ) (bs : List β) :
    view (exec step s bs) = view s ++ (record step event s bs).filterMap f := by
  induction bs generalizing s with
  | nil => exact (List.append_nil _).symm
  | cons b bs ih =>
      rw [exec, ih, hview, record, List.filterMap_append, List.append_assoc]
      cases event s b with
      | none => rfl
      | some e =>
          cases hf : f e with
          | none => simp [hf]
          | some a => simp [hf]

end BoundedQueue
