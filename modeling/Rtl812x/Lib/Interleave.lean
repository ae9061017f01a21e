import Mathlib.Logic.Function.Basic
import Rtl812x.Lib.Runs

/-!
# Interleaved statements

Threads share a state.  What a thread has still to run is a list of statements, and statements are
data, so a proof can look at what lies ahead.  Running a statement changes the shared state and may
put further statements in front of the rest: a branch the one it takes, a loop its next round.

* `Sys.step` — a thread runs its next statement, or an idle thread is called;
* `Sys.step_keeps` — **the rule for one step**: an invariant is kept if the next statement of every
  thread and every call of an idle thread keep it;
* `Finishes` — running a list of statements to its end, alone; `Finishes.exec` — a thread that is left
  alone does just that.
-/

namespace Interleave

open Runs

variable {σ β ι : Type*}

structure Sys (σ β ι : Type*) where
  shared : σ
  /-- what each thread has still to run -/
  code : ι → List β

inductive Move (β ι : Type*) where
  | run (t : ι)
  | call (t : ι) (p : List β)

section Step

variable [DecidableEq ι] (eval : β → σ → σ × List β)

/-- Thread `t` runs `b`; then `k` is left. -/
def Sys.after (s : Sys σ β ι) (t : ι) (b : β) (k : List β) : Sys σ β ι :=
  ⟨(eval b s.shared).1, Function.update s.code t ((eval b s.shared).2 ++ k)⟩

/-- One step; a thread with nothing to run does nothing, and only an idle thread is called. -/
def Sys.step (s : Sys σ β ι) : Move β ι → Sys σ β ι
  | .run t =>
      match s.code t with
      | [] => s
      | b :: k => s.after eval t b k
  | .call t p =>
      match s.code t with
      | [] => ⟨s.shared, Function.update s.code t p⟩
      | _ :: _ => s

variable {eval} {s : Sys σ β ι} {t u : ι} {b : β} {k p : List β}

theorem Sys.step_run (h : s.code t = b :: k) : s.step eval (.run t) = s.after eval t b k := by
  simp only [Sys.step, h]

theorem Sys.step_run_idle (h : s.code t = []) : s.step eval (.run t) = s := by
  simp only [Sys.step, h]

theorem Sys.step_call (h : s.code t = []) :
    s.step eval (.call t p) = ⟨s.shared, Function.update s.code t p⟩ := by
  simp only [Sys.step, h]

theorem Sys.step_call_busy (h : s.code t ≠ []) : s.step eval (.call t p) = s := by
  simp only [Sys.step]
  cases hc : s.code t with
  | nil => exact absurd hc h
  | cons b k => rfl

@[simp] theorem Sys.after_code_self : (s.after eval t b k).code t = (eval b s.shared).2 ++ k :=
  Function.update_self ..

theorem Sys.after_code_of_ne (h : u ≠ t) : (s.after eval t b k).code u = s.code u :=
  Function.update_of_ne h ..

/-- What some thread has ahead it still has, if a statement leaves it to the thread that runs it. -/
theorem Sys.exists_after {Q : List β → Prop} (h : ∃ u, Q (s.code u)) (hcode : s.code t = b :: k)
    (hq : Q (b :: k) → Q ((eval b s.shared).2 ++ k)) : ∃ u, Q ((s.after eval t b k).code u) := by
  obtain ⟨u, hu⟩ := h
  by_cases hut : u = t
  · subst hut
    rw [hcode] at hu
    exact ⟨u, by rw [Sys.after_code_self]; exact hq hu⟩
  · exact ⟨u, by rwa [Sys.after_code_of_ne hut]⟩

/-- **The rule for one step.** -/
theorem Sys.step_keeps {Inv : Sys σ β ι → Prop} (hs : Inv s) (m : Move β ι)
    (hrun : ∀ t b k, m = .run t → s.code t = b :: k → Inv (s.after eval t b k))
    (hcall : ∀ t p, m = .call t p → s.code t = [] → Inv ⟨s.shared, Function.update s.code t p⟩) :
    Inv (s.step eval m) := by
  cases m with
  | run t =>
      cases hc : s.code t with
      | nil => rwa [Sys.step_run_idle hc]
      | cons b k =>
          rw [Sys.step_run hc]
          exact hrun t b k rfl hc
  | call t p =>
      by_cases hc : s.code t = []
      · rw [Sys.step_call hc]
        exact hcall t p rfl hc
      · rwa [Sys.step_call_busy hc]

end Step

/-! ### A thread alone -/

/-- The statements run to their end take the first state to the second. -/
inductive Finishes (eval : β → σ → σ × List β) : List β → σ → σ → Prop
  | nil (s : σ) : Finishes eval [] s s
  | cons {b : β} {k : List β} {s s' : σ} (h : Finishes eval ((eval b s).2 ++ k) (eval b s).1 s') :
      Finishes eval (b :: k) s s'

section Finishes

variable {eval : β → σ → σ × List β} {p q : List β} {s s' s'' : σ}

theorem Finishes.append (h : Finishes eval p s s') (h' : Finishes eval q s' s'') :
    Finishes eval (p ++ q) s s'' := by
  induction h with
  | nil s => exact h'
  | cons _ ih =>
      rw [List.cons_append]
      refine Finishes.cons ?_
      rw [← List.append_assoc]
      exact ih h'

/-- **A thread that is left alone finishes**, and no other thread's code changes. -/
theorem Finishes.exec [DecidableEq ι] (h : Finishes eval p s s') (t : ι) (sys : Sys σ β ι)
    (hshared : sys.shared = s) (hcode : sys.code t = p) :
    ∃ n, exec (Sys.step eval) sys (List.replicate n (.run t)) = ⟨s', Function.update sys.code t []⟩ := by
  induction h generalizing sys with
  | nil s =>
      refine ⟨0, ?_⟩
      subst hshared
      rw [← hcode, Function.update_eq_self]
      rfl
  | @cons b k s s' _ ih =>
      subst hshared
      obtain ⟨n, hn⟩ := ih (sys.after eval t b k) rfl Sys.after_code_self
      refine ⟨n + 1, ?_⟩
      rw [List.replicate_succ, Runs.exec, Sys.step_run hcode, hn]
      simp only [Sys.after, Function.update_idem]

end Finishes

end Interleave
