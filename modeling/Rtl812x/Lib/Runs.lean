import Mathlib.Data.List.Basic

/-!
# Runs of a labelled state machine

A state machine is a step function `σ → α → σ`; a run is the list of labels it is fed.  What the
environment promises, and what a step is allowed to find in the state it starts from, is a
predicate `ok : σ → α → Prop` on a state and the next label; `Along step ok s as` says that every
step of the run `as` from `s` meets it.

* `exec` / `exec_append` / `exec_map` — running a list of labels, in two parts, under other names;
* `Along` / `along_append` — a condition met by every step of a run; `along_congr_of` — two conditions
  that agree wherever a legal run gets while one of them is met, `along_congr` — any run;
* `invariant_along` — **the invariant rule**: what the start satisfies and each admitted step
  keeps, every admitted run keeps; `invariant_exec` — the same where every step is admitted;
* `along_of_invariant` — what the invariant implies of a step holds along every run.
-/

namespace Runs

variable {σ α : Type*}

/-- Run the labels from left to right. -/
def exec (step : σ → α → σ) : σ → List α → σ
  | s, [] => s
  | s, a :: as => exec step (step s a) as

/-- Every step of the run meets `ok` in the state it starts from. -/
def Along (step : σ → α → σ) (ok : σ → α → Prop) : σ → List α → Prop
  | _, [] => True
  | s, a :: as => ok s a ∧ Along step ok (step s a) as

instance decidableAlong (step : σ → α → σ) (ok : σ → α → Prop) [∀ s a, Decidable (ok s a)] :
    ∀ (s : σ) (as : List α), Decidable (Along step ok s as)
  | _, [] => isTrue trivial
  | s, a :: as =>
      have := decidableAlong step ok (step s a) as
      inferInstanceAs (Decidable (ok s a ∧ Along step ok (step s a) as))

theorem exec_append (step : σ → α → σ) (s : σ) (as bs : List α) :
    exec step s (as ++ bs) = exec step (exec step s as) bs := by
  induction as generalizing s with
  | nil => rfl
  | cons a as ih => exact ih (step s a)

/-- Running labels that stand for others. -/
theorem exec_map {γ : Type*} (step : σ → α → σ) (f : γ → α) (s : σ) (cs : List γ) :
    exec (fun s c => step s (f c)) s cs = exec step s (cs.map f) := by
  induction cs generalizing s with
  | nil => rfl
  | cons c cs ih => exact ih (step s (f c))

theorem along_append (step : σ → α → σ) (ok : σ → α → Prop) (s : σ) (as bs : List α) :
    Along step ok s (as ++ bs) ↔ Along step ok s as ∧ Along step ok (exec step s as) bs := by
  induction as generalizing s with
  | nil => simp [Along, exec]
  | cons a as ih =>
      simp only [List.cons_append, Along, exec, ih (step s a), and_assoc]

/-- **The invariant rule.**  A property of the start that every admitted step keeps holds after
every admitted run. -/
theorem invariant_along {step : σ → α → σ} {ok : σ → α → Prop} {Inv : σ → Prop}
    (hstep : ∀ s a, Inv s → ok s a → Inv (step s a)) :
    ∀ {s : σ} {as : List α}, Inv s → Along step ok s as → Inv (exec step s as) := by
  intro s as
  induction as generalizing s with
  | nil => exact fun hs _ => hs
  | cons a as ih => exact fun hs h => ih (hstep s a hs h.1) h.2

/-- Every run meets no condition at all. -/
theorem along_trivial (step : σ → α → σ) (s : σ) (as : List α) :
    Along step (fun _ _ => True) s as := by
  induction as generalizing s with
  | nil => exact trivial
  | cons a as ih => exact ⟨trivial, ih (step s a)⟩

/-- Two conditions that agree wherever a legal run gets while one of them is met. -/
theorem along_congr_of {step : σ → α → σ} {legal ok ok' : σ → α → Prop} {Inv : σ → Prop}
    (hiff : ∀ s a, Inv s → legal s a → (ok s a ↔ ok' s a))
    (hstep : ∀ s a, Inv s → legal s a → ok s a → Inv (step s a)) :
    ∀ {s : σ} {as : List α}, Inv s → Along step legal s as →
      (Along step ok s as ↔ Along step ok' s as) := by
  intro s as
  induction as generalizing s with
  | nil => exact fun _ _ => Iff.rfl
  | cons a as ih =>
      intro hs hlegal
      have hhead := hiff s a hs hlegal.1
      constructor
      · rintro ⟨ha, has⟩
        exact ⟨hhead.mp ha, (ih (hstep s a hs hlegal.1 ha) hlegal.2).mp has⟩
      · rintro ⟨ha, has⟩
        exact ⟨hhead.mpr ha, (ih (hstep s a hs hlegal.1 (hhead.mpr ha)) hlegal.2).mpr has⟩

/-- The same for runs of any steps. -/
theorem along_congr {step : σ → α → σ} {ok ok' : σ → α → Prop} {Inv : σ → Prop}
    (hiff : ∀ s a, Inv s → (ok s a ↔ ok' s a)) (hstep : ∀ s a, Inv s → ok s a → Inv (step s a))
    {s : σ} {as : List α} (hs : Inv s) : Along step ok s as ↔ Along step ok' s as :=
  along_congr_of (fun s a h _ => hiff s a h) (fun s a h _ => hstep s a h) hs (along_trivial step s as)

/-- The rule for runs of any steps. -/
theorem invariant_exec {step : σ → α → σ} {Inv : σ → Prop}
    (hstep : ∀ s a, Inv s → Inv (step s a)) :
    ∀ {s : σ} {as : List α}, Inv s → Inv (exec step s as) := by
  intro s as
  induction as generalizing s with
  | nil => exact fun hs => hs
  | cons a as ih => exact fun hs => ih (hstep s a hs)

/-- What a kept property says of each next step holds along every run. -/
theorem along_of_invariant {step : σ → α → σ} {ok : σ → α → Prop} {Inv : σ → Prop}
    (hok : ∀ s a, Inv s → ok s a) (hstep : ∀ s a, Inv s → Inv (step s a)) :
    ∀ {s : σ} {as : List α}, Inv s → Along step ok s as := by
  intro s as
  induction as generalizing s with
  | nil => exact fun _ => trivial
  | cons a as ih => exact fun hs => ⟨hok s a hs, ih (hstep s a hs)⟩

end Runs
