import Mathlib.Data.Nat.Count
import Mathlib.Data.Nat.Find
import Mathlib.Logic.Function.Iterate

/-!
# While loops with fuel

`whileFuel c f n s` runs the body `f` while the test `c` holds, for at most `n` rounds; `none` is a
loop still running when the fuel is gone.  `StopsAt c f s k` says that the test holds in each of the
first `k` rounds and fails after them: the number of rounds the loop takes, whatever the fuel.

* `whileFuel_eq_some_iff` — a result is the state after the rounds the loop takes;
* `StopsAt.unique` — a loop takes one number of rounds;
* `runLength` — how long a property holds from the start of a sequence on;
* `steps_le_laps` — **how many steps a counter can take** that stays in a range and goes up, except for
  some steps that may put it back: one lap of the range for each of those, and one more.
-/

namespace Loop

variable {σ : Type*} {c : σ → Bool} {f : σ → σ} {s t : σ} {k j n : ℕ}

/-- Run the body while the test holds, for at most `n` rounds. -/
def whileFuel (c : σ → Bool) (f : σ → σ) : ℕ → σ → Option σ
  | 0, s => if c s then none else some s
  | n + 1, s => if c s then whileFuel c f n (f s) else some s

/-- The test holds in each of the first `k` rounds and fails after them. -/
def StopsAt (c : σ → Bool) (f : σ → σ) (s : σ) (k : ℕ) : Prop :=
  (∀ j < k, c (f^[j] s) = true) ∧ c (f^[k] s) = false

theorem stopsAt_zero_iff : StopsAt c f s 0 ↔ c s = false := by
  simp [StopsAt]

theorem stopsAt_succ_iff : StopsAt c f s (k + 1) ↔ c s = true ∧ StopsAt c f (f s) k := by
  constructor
  · intro h
    exact ⟨h.1 0 (by omega), fun j hj => h.1 (j + 1) (by omega), h.2⟩
  · intro h
    refine ⟨fun j hj => ?_, h.2.2⟩
    cases j with
    | zero => exact h.1
    | succ j => exact h.2.1 j (by omega)

theorem StopsAt.unique (hk : StopsAt c f s k) (hj : StopsAt c f s j) : k = j := by
  rcases Nat.lt_trichotomy k j with h | h | h
  · exact absurd (hj.1 k h) (by rw [hk.2]; decide)
  · exact h
  · exact absurd (hk.1 j h) (by rw [hj.2]; decide)

/-- A loop whose test fails after some round stops at the first such round. -/
theorem exists_stopsAt (h : c (f^[k] s) = false) : ∃ j ≤ k, StopsAt c f s j := by
  have hex : ∃ k, c (f^[k] s) = false := ⟨k, h⟩
  refine ⟨Nat.find hex, Nat.find_min' hex h, fun j hj => ?_, Nat.find_spec hex⟩
  have := Nat.find_min hex hj
  simpa using this

/-- **What a loop returns** is the state after the rounds it takes. -/
theorem whileFuel_eq_some_iff :
    whileFuel c f n s = some t ↔ ∃ k ≤ n, StopsAt c f s k ∧ t = f^[k] s := by
  induction n generalizing s with
  | zero =>
      rw [whileFuel]
      cases hc : c s with
      | false => simp [stopsAt_zero_iff, hc, eq_comm]
      | true => simp [stopsAt_zero_iff, hc]
  | succ n ih =>
      rw [whileFuel]
      cases hc : c s with
      | false =>
          rw [if_neg (by decide), Option.some.injEq]
          constructor
          · intro h
            exact ⟨0, by omega, stopsAt_zero_iff.mpr hc, h.symm⟩
          · rintro ⟨k, _, hk, rfl⟩
            rw [hk.unique (stopsAt_zero_iff.mpr hc)]
            rfl
      | true =>
          rw [if_pos rfl, ih]
          constructor
          · rintro ⟨k, hk, hstop, rfl⟩
            exact ⟨k + 1, by omega, stopsAt_succ_iff.mpr ⟨hc, hstop⟩, rfl⟩
          · rintro ⟨k, hk, hstop, rfl⟩
            cases k with
            | zero => exact absurd (stopsAt_zero_iff.mp hstop) (by rw [hc]; decide)
            | succ k => exact ⟨k, by omega, (stopsAt_succ_iff.mp hstop).2, rfl⟩

/-- A loop that makes no headway never ends. -/
theorem whileFuel_of_fixed (hc : c s = true) (hf : f s = s) (n : ℕ) : whileFuel c f n s = none := by
  induction n with
  | zero => rw [whileFuel, if_pos hc]
  | succ n ih => rw [whileFuel, if_pos hc, hf, ih]

/-! ### How long a property holds -/

/-- The number of places from the first on, at most `n`, at which `p` holds without a gap. -/
def runLength (p : ℕ → Bool) : ℕ → ℕ
  | 0 => 0
  | n + 1 => if p 0 then runLength (fun k => p (k + 1)) n + 1 else 0

theorem runLength_le (p : ℕ → Bool) (n : ℕ) : runLength p n ≤ n := by
  induction n generalizing p with
  | zero => exact le_refl 0
  | succ n ih =>
      rw [runLength]
      split
      · exact Nat.succ_le_succ (ih _)
      · exact Nat.zero_le _

theorem runLength_holds {p : ℕ → Bool} (hj : j < runLength p n) : p j = true := by
  induction n generalizing p j with
  | zero => exact absurd hj (Nat.not_lt_zero j)
  | succ n ih =>
      rw [runLength] at hj
      split at hj
      case isTrue h0 =>
        cases j with
        | zero => exact h0
        | succ j => exact ih (p := fun k => p (k + 1)) (Nat.lt_of_succ_lt_succ hj)
      case isFalse h0 => exact absurd hj (Nat.not_lt_zero j)

theorem runLength_ends {p : ℕ → Bool} (h : runLength p n < n) : p (runLength p n) = false := by
  induction n generalizing p with
  | zero => exact absurd h (Nat.not_lt_zero _)
  | succ n ih =>
      rw [runLength] at h ⊢
      split
      case isTrue h0 =>
        rw [if_pos h0] at h
        exact ih (p := fun k => p (k + 1)) (Nat.lt_of_succ_lt_succ h)
      case isFalse h0 => simpa using h0

/-! ### Laps -/

section Laps

variable {pc : ℕ → ℕ} {back : ℕ → Prop} [DecidablePred back] {size : ℕ}

/-- Each step back costs a lap at most. -/
theorem steps_le_count (hsize : ∀ j < n, pc j < size) (hup : ∀ j < n, ¬ back j → pc j < pc (j + 1)) :
    n ≤ Nat.count back n * size + pc n := by
  induction n with
  | zero => exact Nat.zero_le _
  | succ n ih =>
      have hn := ih (fun j hj => hsize j (by omega)) (fun j hj => hup j (by omega))
      have hlt := hsize n (Nat.lt_succ_self n)
      rw [Nat.count_succ]
      by_cases hback : back n
      · rw [if_pos hback, Nat.add_mul, Nat.one_mul]
        omega
      · have := hup n (Nat.lt_succ_self n) hback
        simp only [if_neg hback, Nat.add_zero]
        omega

/-- **The number of steps** of a run that stays in its range. -/
theorem steps_le_laps (hsize : ∀ j < n, pc j < size) (hup : ∀ j < n, ¬ back j → pc j < pc (j + 1))
    (hlast : pc n ≤ size) : n ≤ (Nat.count back n + 1) * size := by
  have := steps_le_count hsize hup
  rw [Nat.add_mul, Nat.one_mul]
  omega

end Laps

end Loop
