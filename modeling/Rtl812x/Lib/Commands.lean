import Mathlib.Tactic.Common

/-!
# Scripts of commands

A program that does its work through commands gives one, looks at the answer and goes on from there.
`Script ι ρ α` is such a program with commands in `ι`, answers in `ρ` and a result in `α`; what the
commands do is not part of it.  The same script can be run on anything that answers its commands.

* `Script.run` — run a script, given what a command answers and how it changes the state;
* `run_bind` — scripts one after the other;
* `run_refines` — **a refinement of the commands is one of every script**: if two machines answer every
  command alike and stay related, they give every script the same result and end related.
-/

namespace Commands

inductive Script (ι ρ : Type) (α : Type) where
  | done (a : α)
  | call (i : ι) (k : ρ → Script ι ρ α)

namespace Script

variable {ι ρ α β : Type} {σ τ : Type*}

def bind : Script ι ρ α → (α → Script ι ρ β) → Script ι ρ β
  | done a, f => f a
  | call i k, f => call i fun r => (k r).bind f

instance : Monad (Script ι ρ) where
  pure := done
  bind := bind

/-- One command, and its answer. -/
def ask (i : ι) : Script ι ρ ρ := call i done

/-- One command, whose answer does not matter. -/
def tell (i : ι) : Script ι ρ Unit := call i fun _ => done ()

/-- A script for each element of a list, from left to right. -/
def each (f : α → Script ι ρ Unit) : List α → Script ι ρ Unit
  | [] => done ()
  | a :: as => (f a).bind fun _ => each f as

/-- Run a script on a machine. -/
def run (step : ι → σ → ρ × σ) : Script ι ρ α → σ → α × σ
  | done a, s => (a, s)
  | call i k, s => (k (step i s).1).run step (step i s).2

variable {step : ι → σ → ρ × σ} {step' : ι → τ → ρ × τ}

@[simp] theorem run_pure (a : α) (s : σ) : (pure a : Script ι ρ α).run step s = (a, s) := rfl

@[simp] theorem run_ask (i : ι) (s : σ) : (ask i : Script ι ρ ρ).run step s = step i s := rfl

@[simp] theorem run_tell (i : ι) (s : σ) :
    (tell i : Script ι ρ Unit).run step s = ((), (step i s).2) := rfl

@[simp] theorem run_bind (p : Script ι ρ α) (f : α → Script ι ρ β) (s : σ) :
    (p >>= f).run step s = (f (p.run step s).1).run step (p.run step s).2 := by
  show (p.bind f).run step s = _
  induction p generalizing s with
  | done a => rfl
  | call i k ih => exact ih (step i s).1 (step i s).2

@[simp] theorem run_each_nil (f : α → Script ι ρ Unit) (s : σ) : (each f []).run step s = ((), s) := rfl

@[simp] theorem run_each_cons (f : α → Script ι ρ Unit) (a : α) (as : List α) (s : σ) :
    (each f (a :: as)).run step s = (each f as).run step ((f a).run step s).2 :=
  run_bind (f a) (fun _ => each f as) s

theorem run_each_append (f : α → Script ι ρ Unit) (as bs : List α) (s : σ) :
    (each f (as ++ bs)).run step s = (each f bs).run step ((each f as).run step s).2 := by
  induction as generalizing s with
  | nil => rfl
  | cons a as ih => rw [List.cons_append, run_each_cons, run_each_cons, ih]

/-- **A refinement of the commands is one of every script.** -/
theorem run_refines {R : σ → τ → Prop}
    (hstep : ∀ i s t, R s t → (step i s).1 = (step' i t).1 ∧ R (step i s).2 (step' i t).2)
    (p : Script ι ρ α) {s : σ} {t : τ} (h : R s t) :
    (p.run step s).1 = (p.run step' t).1 ∧ R (p.run step s).2 (p.run step' t).2 := by
  induction p generalizing s t with
  | done a => exact ⟨rfl, h⟩
  | call i k ih =>
      obtain ⟨hanswer, hnext⟩ := hstep i s t h
      rw [run, run, hanswer]
      exact ih (step' i t).1 hnext

end Script

end Commands
