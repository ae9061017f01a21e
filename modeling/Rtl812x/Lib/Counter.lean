import Mathlib.Data.Nat.ModEq
import Mathlib.Data.Nat.Bitwise

/-!
# Free-running counters read at a smaller width

Two 32-bit counters run freely and wrap; their distance is taken by machine subtraction and then
reduced modulo `M`, a divisor of `2 ^ 32` (the width at which one of the two is reported).
`lag M a b` is that distance.  It is determined by one congruence (`lag_unique`), from which the
three ways a producer/consumer pair moves follow: the producer steps (`lag_add`), the consumer
catches up by part of the distance (`lag_advance`), both restart (`lag_self`).
-/

namespace WrapCounter

variable {M a b c n : ℕ}

/-- 32-bit machine subtraction. -/
def sub32 (a b : ℕ) : ℕ := (a + (2 ^ 32 - b)) % 2 ^ 32

/-- The 32-bit difference of two counters, reduced modulo `M`. -/
def lag (M a b : ℕ) : ℕ := sub32 a b % M

/-- A mask of low bits reduces modulo the next power of two. -/
theorem sub32_and_mask (k a b : ℕ) : sub32 a b &&& (2 ^ k - 1) = lag (2 ^ k) a b := by
  rw [lag, Nat.and_two_pow_sub_one_eq_mod]

theorem lag_lt (hM : 0 < M) (a b : ℕ) : lag M a b < M := Nat.mod_lt _ hM

theorem lag_modEq (hdvd : M ∣ 2 ^ 32) (hb : b ≤ 2 ^ 32) (a : ℕ) : lag M a b + b ≡ a [MOD M] := by
  have h32 : sub32 a b + b ≡ a [MOD 2 ^ 32] := by
    show (sub32 a b + b) % 2 ^ 32 = a % 2 ^ 32
    rw [sub32, Nat.mod_add_mod, show a + (2 ^ 32 - b) + b = a + 2 ^ 32 by omega,
      Nat.add_mod_right]
  have hM : lag M a b + b ≡ sub32 a b + b [MOD M] := Nat.ModEq.add_right b (Nat.mod_modEq _ _)
  exact hM.trans (h32.of_dvd hdvd)

/-- **The distance is the one number below `M` that leads from `b` to `a`.** -/
theorem lag_unique (hdvd : M ∣ 2 ^ 32) (hb : b ≤ 2 ^ 32) (hn : n < M) (h : n + b ≡ a [MOD M]) :
    lag M a b = n := by
  have hM : 0 < M := by omega
  have heq : lag M a b ≡ n [MOD M] :=
    Nat.ModEq.add_right_cancel' b ((lag_modEq hdvd hb a).trans h.symm)
  rwa [Nat.ModEq, Nat.mod_eq_of_lt (lag_lt hM a b), Nat.mod_eq_of_lt hn] at heq

theorem lag_self (hdvd : M ∣ 2 ^ 32) (ha : a ≤ 2 ^ 32) (hM : 0 < M) : lag M a a = 0 :=
  lag_unique hdvd ha hM (by rw [Nat.zero_add])

/-- The distance as a difference of integers. -/
theorem lag_cast (hdvd : M ∣ 2 ^ 32) (hM : 0 < M) (hb : b ≤ 2 ^ 32) (a : ℕ) :
    (lag M a b : ℤ) = ((a : ℤ) - b) % M := by
  have hmod : ((lag M a b + b : ℕ) : ℤ) % M = (a : ℤ) % M := by
    exact_mod_cast lag_modEq hdvd hb a
  have hsub : ((lag M a b : ℤ)) % M = ((a : ℤ) - b) % M := by
    rw [Int.sub_emod, ← hmod, ← Int.sub_emod]
    push_cast
    rw [add_sub_cancel_right]
  have hlt : (lag M a b : ℤ) < M := by exact_mod_cast lag_lt hM a b
  rw [← hsub, Int.emod_eq_of_lt (by omega) hlt]

/-- A counter between the trailing and the leading one is no further off than the leading one. -/
theorem lag_le_of_modEq (hdvd : M ∣ 2 ^ 32) (hM : 0 < M) (hb : b ≤ 2 ^ 32) (hn : n ≤ lag M a b)
    (h : c ≡ b + n [MOD M]) : lag M c b ≤ lag M a b := by
  have hlag : lag M c b = n := by
    refine lag_unique hdvd hb (hn.trans_lt (lag_lt hM a b)) ?_
    rw [Nat.add_comm]
    exact h.symm
  rw [hlag]
  exact hn

/-- The leading counter goes `n` further, wrapping at 32 bits. -/
theorem lag_add (hdvd : M ∣ 2 ^ 32) (hb : b ≤ 2 ^ 32) (h : lag M a b + n < M) :
    lag M ((a + n) % 2 ^ 32) b = lag M a b + n := by
  apply lag_unique hdvd hb h
  have hstep : lag M a b + n + b ≡ a + n [MOD M] := by
    have := Nat.ModEq.add_right n (lag_modEq hdvd hb a)
    rwa [show lag M a b + b + n = lag M a b + n + b by omega] at this
  exact hstep.trans ((Nat.mod_modEq (a + n) (2 ^ 32)).of_dvd hdvd).symm

/-- The trailing counter moves to `c`, which lies no further than the leading one. -/
theorem lag_advance (hdvd : M ∣ 2 ^ 32) (hM : 0 < M) (hb : b ≤ 2 ^ 32) (hc : c ≤ 2 ^ 32)
    (h : lag M c b ≤ lag M a b) : lag M a c = lag M a b - lag M c b := by
  apply lag_unique hdvd hc (by have := lag_lt hM a b; omega)
  have hcb : lag M a b - lag M c b + (lag M c b + b) ≡ lag M a b - lag M c b + c [MOD M] :=
    Nat.ModEq.add_left _ (lag_modEq hdvd hb c)
  rw [show lag M a b - lag M c b + (lag M c b + b) = lag M a b + b by omega] at hcb
  exact hcb.symm.trans (lag_modEq hdvd hb a)

end WrapCounter
