import Mathlib.Logic.Function.Basic
import Rtl812x.Lib.Runs

/-!
# Threads around a lock bit

Threads share a state and one lock bit, and run programs whose statements are atomic: a change of
the shared state, a test, an attempt to take the lock (test and set), its release, and operations
that take time.  An operation begins and ends in separate steps; between them other threads run.

The lock is taken in **attempts**: a thread that finds it taken goes another way.  One thread, the
*owner*, may also begin operations without the lock, and may force it open; the others may not.

* `Prog.Keeps own held p` — the discipline of a program, read off its text;
* `Respects owner` — the conditions under which the owner's liberties do no harm: it begins an
  operation without the lock only while the lock is free, nobody takes the lock during such an
  operation, and it forces open only a free lock;
* `Inv` — what then holds between the statements; `Inv.step` — every step keeps it;
* `Inv.exclusive` — **at most one thread is in an operation**.
-/

namespace TryLock

open Runs

variable {σ ω ι : Type*}

/-! ### Programs and threads -/

inductive Prog (σ ω : Type*) where
  | ret
  | act (f : σ → σ) (k : Prog σ ω)
  /-- a test of the lock bit and the shared state -/
  | test (c : Bool → σ → Bool) (yes no : Prog σ ω)
  | tryLock (busy got : Prog σ ω)
  | unlock (k : Prog σ ω)
  /-- force the lock open, in one step with a change of the shared state -/
  | force (f : σ → σ) (k : Prog σ ω)
  /-- an operation; its effect shows at its end -/
  | op (o : ω) (f : σ → σ) (k : Prog σ ω)

/-- A thread: what it has still to run, the operation it is in, and whether it has taken the lock.
No statement reads `held`. -/
structure Thread (σ ω : Type*) where
  prog : Prog σ ω
  doing : Option ω
  held : Bool

def Thread.idle : Thread σ ω := ⟨.ret, none, false⟩

structure Sys (σ ω ι : Type*) where
  lock : Bool
  shared : σ
  thread : ι → Thread σ ω

/-- The next statement of a thread. -/
def Thread.next (th : Thread σ ω) (lock : Bool) (s : σ) : Thread σ ω × Bool × σ :=
  match th.prog with
  | .ret => (th, lock, s)
  | .act f k => ({ th with prog := k }, lock, f s)
  | .test c yes no => ({ th with prog := if c lock s then yes else no }, lock, s)
  | .tryLock busy got =>
      if lock then ({ th with prog := busy }, lock, s)
      else ({ th with prog := got, held := true }, true, s)
  | .unlock k => ({ th with prog := k, held := false }, false, s)
  | .force f k => ({ th with prog := k }, false, f s)
  | .op o f k =>
      match th.doing with
      | none => ({ th with doing := some o }, lock, s)
      | some _ => ({ th with prog := k, doing := none }, lock, f s)

/-- A thread takes a step, an idle thread is given a program, or the shared state changes from
outside. -/
inductive Move (σ ω ι : Type*) where
  | run (t : ι)
  | call (t : ι) (p : Prog σ ω)
  | env (f : σ → σ)

variable [DecidableEq ι]

def Sys.set (s : Sys σ ω ι) (t : ι) (r : Thread σ ω × Bool × σ) : Sys σ ω ι :=
  ⟨r.2.1, r.2.2, Function.update s.thread t r.1⟩

def Sys.step (s : Sys σ ω ι) : Move σ ω ι → Sys σ ω ι
  | .run t => s.set t ((s.thread t).next s.lock s.shared)
  | .call t p =>
      match (s.thread t).prog with
      | .ret => s.set t ({ s.thread t with prog := p }, s.lock, s.shared)
      | _ => s
  | .env f => { s with shared := f s.shared }

/-! ### The discipline -/

/-- A program that has (`held`) or has not taken the lock: it takes the lock only without it,
releases it only with it, and ends without it.  Only the owner may go without the lock into an
operation, or force it open. -/
def Prog.Keeps (own : Bool) : Bool → Prog σ ω → Prop
  | held, .ret => held = false
  | held, .act _ k => k.Keeps own held
  | held, .test _ yes no => yes.Keeps own held ∧ no.Keeps own held
  | held, .tryLock busy got => held = false ∧ busy.Keeps own false ∧ got.Keeps own true
  | held, .unlock k => held = true ∧ k.Keeps own false
  | held, .force _ k => own = true ∧ held = false ∧ k.Keeps own false
  | held, .op _ _ k => (own = true ∨ held = true) ∧ k.Keeps own held

/-- In an operation without the lock. -/
def Thread.Loose (th : Thread σ ω) : Prop := th.doing.isSome = true ∧ th.held = false

instance (th : Thread σ ω) : Decidable th.Loose := inferInstanceAs (Decidable (_ ∧ _))

/-- What thread `t` may find before the first statement of `p`. -/
def Sys.Finds (owner t : ι) (s : Sys σ ω ι) : Prog σ ω → Prop
  | .op _ _ _ => (s.thread t).doing = none → (s.thread t).held = false → s.lock = false
  | .tryLock _ _ => s.lock = false → ¬ (s.thread owner).Loose
  | .force _ _ => s.lock = false
  | _ => True

instance (owner t : ι) (s : Sys σ ω ι) : ∀ p, Decidable (s.Finds owner t p)
  | .ret | .act _ _ | .test _ _ _ | .unlock _ => isTrue trivial
  | .op _ _ _ => inferInstanceAs (Decidable (_ → _ → _))
  | .tryLock _ _ => inferInstanceAs (Decidable (_ → ¬ _))
  | .force _ _ => inferInstanceAs (Decidable (s.lock = false))

def Respects (owner : ι) (s : Sys σ ω ι) : Move σ ω ι → Prop
  | .run t => s.Finds owner t (s.thread t).prog
  | _ => True

instance (owner : ι) (s : Sys σ ω ι) : ∀ m, Decidable (Respects owner s m)
  | .run t => inferInstanceAs (Decidable (s.Finds owner t _))
  | .call _ _ | .env _ => isTrue trivial

/-- Programs that threads are given keep the discipline. -/
def Disciplined (owner : ι) : Move σ ω ι → Prop
  | .call t p => p.Keeps (decide (t = owner)) false
  | _ => True

/-! ### The invariant -/

structure Inv (owner : ι) (s : Sys σ ω ι) : Prop where
  keeps : ∀ t, (s.thread t).prog.Keeps (decide (t = owner)) (s.thread t).held
  doing : ∀ t o, (s.thread t).doing = some o → ∃ f k, (s.thread t).prog = .op o f k
  lock : ∀ t, (s.thread t).held = true → s.lock = true
  one : ∀ t u, (s.thread t).held = true → (s.thread u).held = true → t = u
  alone : (s.thread owner).Loose → s.lock = false

variable {owner : ι} {s : Sys σ ω ι} {t u : ι}

/-- Only the owner is ever in an operation without the lock. -/
theorem Inv.eq_owner (hi : Inv owner s) (ht : (s.thread t).Loose) : t = owner := by
  obtain ⟨o, ho⟩ := Option.isSome_iff_exists.mp ht.1
  obtain ⟨f, k, hprog⟩ := hi.doing t o ho
  have hkeeps := hi.keeps t
  rw [hprog, ht.2] at hkeeps
  rcases hkeeps.1 with h | h
  · exact of_decide_eq_true h
  · cases h

/-- **At most one thread is in an operation.** -/
theorem Inv.exclusive (hi : Inv owner s) (ht : (s.thread t).doing.isSome = true)
    (hu : (s.thread u).doing.isSome = true) : t = u := by
  cases hth : (s.thread t).held with
  | true =>
      cases huh : (s.thread u).held with
      | true => exact hi.one t u hth huh
      | false =>
          have hloose : (s.thread u).Loose := ⟨hu, huh⟩
          rw [hi.eq_owner hloose] at hloose
          exact absurd (hi.lock t hth) (by rw [hi.alone hloose]; decide)
  | false =>
      have hloose : (s.thread t).Loose := ⟨ht, hth⟩
      have howner := hi.eq_owner hloose
      rw [howner] at hloose ⊢
      cases huh : (s.thread u).held with
      | true => exact absurd (hi.lock u huh) (by rw [hi.alone hloose]; decide)
      | false => exact (hi.eq_owner ⟨hu, huh⟩).symm

theorem Inv.idle (owner : ι) (lock : Bool) (shared : σ) :
    Inv owner (⟨lock, shared, fun _ => .idle⟩ : Sys σ ω ι) where
  keeps := fun _ => rfl
  doing := by
    intro t o h
    cases h
  lock := by
    intro t h
    cases h
  one := by
    intro t u h
    cases h
  alone := by
    intro h
    cases h.1

/-! ### One step -/

section Step

variable {th : Thread σ ω} {lock : Bool} {shared : σ}

theorem Sys.set_thread_self (s : Sys σ ω ι) (t : ι) (r : Thread σ ω × Bool × σ) :
    (s.set t r).thread t = r.1 := Function.update_self _ _ _

theorem Sys.set_thread_of_ne (r : Thread σ ω × Bool × σ) (h : u ≠ t) :
    (s.set t r).thread u = s.thread u := Function.update_of_ne h _ _

/-- A thread that is at no operation is in none. -/
theorem Inv.doing_none (hi : Inv owner s) (h : ∀ o f k, (s.thread t).prog ≠ .op o f k) :
    (s.thread t).doing = none := by
  cases hd : (s.thread t).doing with
  | none => rfl
  | some o =>
      obtain ⟨f, k, hprog⟩ := hi.doing t o hd
      exact absurd hprog (h o f k)

/-- While another thread has the lock, `t` has not. -/
theorem Inv.held_false (hi : Inv owner s) (hu : u ≠ t) (h : (s.thread u).held = true) :
    (s.thread t).held = false := by
  cases ht : (s.thread t).held with
  | false => rfl
  | true => exact absurd (hi.one u t h ht) hu

/-- What has to be shown of a step of `t`: the discipline of the rest of its program, that it is in
an operation only at one, and the lock. -/
theorem Inv.set (hi : Inv owner s) (hkeeps : th.prog.Keeps (decide (t = owner)) th.held)
    (hdoing : ∀ o, th.doing = some o → ∃ f k, th.prog = .op o f k)
    (hlock : th.held = true → lock = true)
    (hothers : ∀ u ≠ t, (s.thread u).held = true → th.held = false ∧ lock = true)
    (halone : owner = t → th.Loose → lock = false)
    (halone' : owner ≠ t → (s.thread owner).Loose → lock = false) :
    Inv owner (s.set t (th, lock, shared)) where
  keeps := by
    intro u
    by_cases hu : u = t
    · rw [hu, Sys.set_thread_self]
      exact hkeeps
    · rw [Sys.set_thread_of_ne _ hu]
      exact hi.keeps u
  doing := by
    intro u o
    by_cases hu : u = t
    · rw [hu, Sys.set_thread_self]
      exact hdoing o
    · rw [Sys.set_thread_of_ne _ hu]
      exact hi.doing u o
  lock := by
    intro u
    by_cases hu : u = t
    · rw [hu, Sys.set_thread_self]
      exact hlock
    · rw [Sys.set_thread_of_ne _ hu]
      exact fun h => (hothers u hu h).2
  one := by
    intro u v
    by_cases hu : u = t <;> by_cases hv : v = t
    · rw [hu, hv]
      exact fun _ _ => rfl
    · rw [hu, Sys.set_thread_self, Sys.set_thread_of_ne _ hv]
      intro hheld h
      rw [(hothers v hv h).1] at hheld
      cases hheld
    · rw [hv, Sys.set_thread_self, Sys.set_thread_of_ne _ hu]
      intro h hheld
      rw [(hothers u hu h).1] at hheld
      cases hheld
    · rw [Sys.set_thread_of_ne _ hu, Sys.set_thread_of_ne _ hv]
      exact hi.one u v
  alone := by
    by_cases ht : owner = t
    · rw [ht, Sys.set_thread_self]
      exact halone ht
    · rw [Sys.set_thread_of_ne _ ht]
      exact halone' ht

/-- A step that is about neither the lock nor an operation. -/
theorem Inv.set_quiet (hi : Inv owner s) (hkeeps : th.prog.Keeps (decide (t = owner)) th.held)
    (hheld : th.held = (s.thread t).held) (hdoing : th.doing = none) :
    Inv owner (s.set t (th, s.lock, shared)) := by
  refine hi.set hkeeps ?_ ?_ ?_ ?_ fun _ => hi.alone
  · intro o h
    rw [hdoing] at h
    cases h
  · rw [hheld]
    exact hi.lock t
  · intro u hu h
    rw [hheld]
    exact ⟨hi.held_false hu h, hi.lock u h⟩
  · rintro - ⟨h, -⟩
    rw [hdoing] at h
    cases h

end Step

/-- **One statement of a thread**, one case for each kind of statement. -/
theorem Inv.run (hi : Inv owner s) (hrespects : Respects owner s (.run t)) :
    Inv owner (s.step (.run t)) := by
  have hkeeps := hi.keeps t
  have hnone := hi.doing_none (t := t)
  rw [Respects] at hrespects
  rw [Sys.step, Thread.next]
  cases hprog : (s.thread t).prog with
  | ret => exact hi.set_quiet hkeeps rfl (hnone (by simp [hprog]))
  | act f k =>
      rw [hprog] at hkeeps
      exact hi.set_quiet hkeeps rfl (hnone (by simp [hprog]))
  | test c yes no =>
      rw [hprog] at hkeeps
      refine hi.set_quiet ?_ rfl (hnone (by simp [hprog]))
      show (if c s.lock s.shared then yes else no).Keeps _ _
      split
      · exact hkeeps.1
      · exact hkeeps.2
  | tryLock busy got =>
      rw [hprog] at hkeeps hrespects
      have hdoing := hnone (by simp [hprog])
      cases hlock : s.lock with
      | true =>
          have hquiet : Inv owner (s.set t ({ s.thread t with prog := busy }, s.lock, s.shared)) :=
            hi.set_quiet (by rw [hkeeps.1]; exact hkeeps.2.1) rfl hdoing
          rwa [hlock] at hquiet
      | false =>
          refine hi.set hkeeps.2.2 ?_ (fun _ => rfl) ?_ ?_ ?_
          · intro o h
            rw [hdoing] at h
            cases h
          · intro u _ h
            rw [hi.lock u h] at hlock
            cases hlock
          · rintro - ⟨-, h⟩
            cases h
          · exact fun _ h => absurd h (hrespects hlock)
  | unlock k =>
      rw [hprog] at hkeeps
      have hdoing := hnone (by simp [hprog])
      refine hi.set hkeeps.2 ?_ ?_ ?_ (fun _ _ => rfl) (fun _ _ => rfl)
      · intro o h
        rw [hdoing] at h
        cases h
      · intro h
        cases h
      · intro u hu h
        exact absurd (hi.one u t h hkeeps.1) hu
  | force f k =>
      rw [hprog] at hkeeps hrespects
      have hquiet : Inv owner (s.set t ({ s.thread t with prog := k }, s.lock, f s.shared)) :=
        hi.set_quiet (by rw [hkeeps.2.1]; exact hkeeps.2.2) rfl (hnone (by simp [hprog]))
      rwa [hrespects] at hquiet
  | op o f k =>
      rw [hprog] at hkeeps hrespects
      cases hdoing : (s.thread t).doing with
      | some _ => exact hi.set_quiet hkeeps.2 rfl rfl
      | none =>
          refine hi.set hkeeps ?_ (hi.lock t) ?_ ?_ (fun _ => hi.alone)
          · intro o' h
            rw [← Option.some.inj h]
            exact ⟨f, k, rfl⟩
          · exact fun u hu h => ⟨hi.held_false hu h, hi.lock u h⟩
          · rintro - ⟨-, h⟩
            exact hrespects hdoing h

theorem Inv.step {m : Move σ ω ι} (hi : Inv owner s) (hdisc : Disciplined owner m)
    (hrespects : Respects owner s m) : Inv owner (s.step m) := by
  cases m with
  | run t => exact hi.run hrespects
  | call t p =>
      rw [Sys.step]
      split
      case h_1 hprog =>
        have hkeeps := hi.keeps t
        rw [hprog] at hkeeps
        refine hi.set_quiet ?_ rfl (hi.doing_none (by simp [hprog]))
        rw [show (s.thread t).held = false from hkeeps]
        exact hdisc
      case h_2 => exact hi
  | env f => exact ⟨hi.keeps, hi.doing, hi.lock, hi.one, hi.alone⟩

end TryLock
