import Mathlib.Data.Nat.Size
import Mathlib.Data.Nat.Log
import Mathlib.Tactic.Ring
import Rtl812x.Lib.Text

/-!
# Finite double-precision numbers

A finite double is a multiple of `2 ^ -1074`: a significand of at most 53 bits, shifted.  What overflows
is no `Binary64`, so conversions give an `Option`.

* `ofRatio` — the double nearest to a ratio, ties to even, `none` where it overflows;
  `ofInt`, `ofDecimalToken` — an integer and a decimal number;
* `ofInt_eq_none_iff` — **an integer overflows exactly from `2 ^ 1024 - 2 ^ 970` on**;
  `divide_ne_none` — a quotient by more than one never does;
* `repr` — the shortest decimal number that reads back as the double; `fixed3` — three decimals.
-/

open Text

/-- A finite double: `mant * 2 ^ exp` units of `2 ^ -1074`, with a sign. -/
structure Binary64 where
  neg : Bool
  mant : ℕ
  exp : ℕ
  mant_lt : mant < 2 ^ 53
  exp_le : exp ≤ 2045
deriving DecidableEq, Repr

namespace Binary64

/-- The magnitude, in units of `2 ^ -1074`. -/
def units (x : Binary64) : ℕ := x.mant * 2 ^ x.exp

/-- `n / d` rounded to the nearest integer, ties to even. -/
def roundHalfEven (n d : ℕ) : ℕ :=
  if 2 * (n % d) < d ∨ 2 * (n % d) = d ∧ n / d % 2 = 0 then n / d else n / d + 1

/-- The double nearest to `p / q`, with a sign. -/
def ofRatio (neg : Bool) (p q : ℕ) : Option Binary64 :=
  let n := p * 2 ^ 1074
  let e := Nat.size (n / q) - 53
  let m := roundHalfEven n (q * 2 ^ e)
  if hm : m < 2 ^ 53 then
    if he : e ≤ 2045 then some ⟨neg, m, e, hm, he⟩ else none
  else
    -- the significand was rounded up to `2 ^ 53`
    if he : e + 1 ≤ 2045 then some ⟨neg, 2 ^ 52, e + 1, by decide, he⟩ else none

/-- `float(n)` for an integer. -/
def ofInt (n : ℤ) : Option Binary64 := ofRatio (decide (n < 0)) n.natAbs 1

/-! ### Overflow -/

theorem roundHalfEven_mul {n d c : ℕ} (hc : 0 < c) :
    roundHalfEven (n * c) (d * c) = roundHalfEven n d := by
  have hlt : 2 * (n % d * c) < d * c ↔ 2 * (n % d) < d := by
    rw [← Nat.mul_assoc, Nat.mul_lt_mul_right hc]
  have heq : 2 * (n % d * c) = d * c ↔ 2 * (n % d) = d := by
    rw [← Nat.mul_assoc, Nat.mul_left_inj hc.ne']
  simp only [roundHalfEven, Nat.mul_div_mul_right n d hc, Nat.mul_mod_mul_right, hlt, heq]

/-- What is rounded up to an even bound: from half a step below it on. -/
theorem roundHalfEven_lt_iff {n h k : ℕ} (hh : 0 < h) (hk : k % 2 = 0) (hn : n < k * (2 * h)) :
    roundHalfEven n (2 * h) < k ↔ n + h < k * (2 * h) := by
  have hdiv := Nat.div_add_mod n (2 * h)
  have hmod := Nat.mod_lt n (show 0 < 2 * h by omega)
  have hlt : n / (2 * h) < k := (Nat.div_lt_iff_lt_mul (by omega)).mpr hn
  rw [roundHalfEven]
  generalize n / (2 * h) = q at *
  generalize n % (2 * h) = r at *
  obtain ⟨j, rfl⟩ : ∃ j, k = q + 1 + j := ⟨k - (q + 1), by omega⟩
  have hexpand : (q + 1 + j) * (2 * h) = 2 * h * q + 2 * h + j * (2 * h) := by ring
  rw [hexpand]
  cases j with
  | zero =>
      -- the quotient is odd, so a tie is rounded up as well
      rw [Nat.zero_mul]
      split <;> omega
  | succ j =>
      have hstep : (j + 1) * (2 * h) = j * (2 * h) + 2 * h := by ring
      rw [hstep]
      split <;> omega

/-- What overflows: too large an exponent, or the largest with a significand that is rounded up. -/
theorem ofRatio_eq_none_iff (neg : Bool) (p q : ℕ) : ofRatio neg p q = none ↔
    2045 < Nat.size (p * 2 ^ 1074 / q) - 53 ∨ Nat.size (p * 2 ^ 1074 / q) - 53 = 2045 ∧
      2 ^ 53 ≤ roundHalfEven (p * 2 ^ 1074) (q * 2 ^ (Nat.size (p * 2 ^ 1074 / q) - 53)) := by
  rw [ofRatio]
  generalize Nat.size (p * 2 ^ 1074 / q) - 53 = e
  generalize roundHalfEven (p * 2 ^ 1074) (q * 2 ^ e) = m
  split <;> split <;> simp only [reduceCtorEq, true_iff, false_iff] <;> omega

/-- The size of an integer, in units. -/
theorem size_units (a k : ℕ) : Nat.size (a * 2 ^ 1074) - 53 ≤ k + 1021 ↔ a < 2 ^ k := by
  have hsize : Nat.size (a * 2 ^ 1074) ≤ k + 1074 ↔ a < 2 ^ k := by
    rw [Nat.size_le, Nat.pow_add, Nat.mul_lt_mul_right (Nat.two_pow_pos 1074)]
  omega

-- powers of two apart, with the exponents as variables so that they are not evaluated
theorem two_pow_split (j k : ℕ) : 2 ^ (j + (1 + k)) = 2 ^ j * (2 * 2 ^ k) := by
  rw [Nat.pow_add, Nat.pow_add 2 1 k, Nat.pow_one]

/-- **Integers overflow from `2 ^ 1024 - 2 ^ 970` on.** -/
theorem ofInt_eq_none_iff (n : ℤ) : ofInt n = none ↔ 2 ^ 1024 - 2 ^ 970 ≤ n.natAbs := by
  rw [ofInt, ofRatio_eq_none_iff, Nat.div_one, Nat.one_mul]
  generalize n.natAbs = a
  have hlow := size_units a 1023
  have hhigh := size_units a 1024
  have hpow : (2 : ℕ) ^ 1024 = 2 ^ 53 * (2 * 2 ^ 970) := by
    rw [show 1024 = 53 + (1 + 970) from rfl, two_pow_split]
  have hpow' : (2 : ℕ) ^ 1023 = 2 ^ 52 * (2 * 2 ^ 970) := by
    rw [show 1023 = 52 + (1 + 970) from rfl, two_pow_split]
  have hunit : (2 : ℕ) ^ 2045 = 2 * 2 ^ 970 * 2 ^ 1074 := by
    rw [show 2045 = 1074 + (1 + 970) from rfl, two_pow_split, Nat.mul_comm]
  have hpos : 0 < 2 ^ 970 := Nat.two_pow_pos 970
  by_cases hlt : a < 2 ^ 1024
  · by_cases hsmall : a < 2 ^ 1023
    · rw [hpow'] at hsmall hlow
      rw [hpow]
      generalize (2 : ℕ) ^ 970 = h at *
      omega
    · have hexp : Nat.size (a * 2 ^ 1074) - 53 = 2045 := by omega
      have hscale : roundHalfEven (a * 2 ^ 1074) (2 ^ 2045) = roundHalfEven a (2 * 2 ^ 970) := by
        rw [hunit, roundHalfEven_mul (Nat.two_pow_pos 1074)]
      have hround := roundHalfEven_lt_iff (n := a) hpos (show 2 ^ 53 % 2 = 0 by decide) (hpow ▸ hlt)
      rw [hexp, hscale]
      rw [hpow]
      generalize (2 : ℕ) ^ 970 = h at *
      omega
  · have hexp : ¬ Nat.size (a * 2 ^ 1074) - 53 ≤ 2045 := fun h => hlt (hhigh.mp h)
    rw [hpow] at hlt ⊢
    generalize (2 : ℕ) ^ 970 = h at *
    omega

/-- `x / d` for an integer that is a double. -/
def divide (x : Binary64) (d : ℕ) : Option Binary64 := ofRatio x.neg x.units (2 ^ 1074 * d)

theorem shift_div_lt {m e d j k n : ℕ} (hm : m < 2 ^ j) (he : e ≤ k) (hd : 2 ≤ d) (hn : j + k = n + 1) :
    m * 2 ^ e / d < 2 ^ n := by
  rw [Nat.div_lt_iff_lt_mul (by omega)]
  calc m * 2 ^ e < 2 ^ j * 2 ^ e := (Nat.mul_lt_mul_right (Nat.two_pow_pos e)).mpr hm
    _ ≤ 2 ^ j * 2 ^ k := Nat.mul_le_mul_left _ (Nat.pow_le_pow_right (by decide) he)
    _ = 2 ^ n * 2 := by rw [← Nat.pow_add, hn, Nat.pow_succ]
    _ ≤ 2 ^ n * d := Nat.mul_le_mul_left _ hd

/-- A quotient by more than one does not overflow. -/
theorem divide_ne_none (x : Binary64) {d : ℕ} (hd : 2 ≤ d) : x.divide d ≠ none := by
  have hsize : Nat.size (x.units / d) ≤ 2097 :=
    Nat.size_le.mpr (shift_div_lt x.mant_lt x.exp_le hd rfl)
  have hdiv : x.units * 2 ^ 1074 / (2 ^ 1074 * d) = x.units / d := by
    rw [Nat.mul_comm, Nat.mul_div_mul_left _ _ (Nat.two_pow_pos 1074)]
  rw [divide, Ne, ofRatio_eq_none_iff, hdiv]
  omega

/-! ### Decimal numbers -/

/-- `float(token)` for a decimal number: a sign, digits, a fraction, an exponent. -/
def ofDecimalToken (token : Str) : Option Binary64 :=
  let neg := token.head? == some 0x2D
  let body := if neg then token.tail else token
  let rest := body.dropWhile isDigit
  let frac := if rest.head? = some 0x2E then rest.tail.takeWhile isDigit else []
  let tail := if rest.head? = some 0x2E then rest.tail.dropWhile isDigit else rest
  let exponent : ℤ := match tail with
    | _ :: 0x2D :: digits => -(ofDecimal digits : ℤ)
    | _ :: 0x2B :: digits => ofDecimal digits
    | _ :: digits => ofDecimal digits
    | [] => 0
  let m := ofDecimal (body.takeWhile isDigit ++ frac)
  let scale := exponent - frac.length
  if 0 ≤ scale then ofRatio neg (m * 10 ^ scale.toNat) 1 else ofRatio neg m (10 ^ (-scale).toNat)

/-- The decimal exponent of a positive double below `10 ^ decpt` and not below a tenth of that. -/
def decpt (x : Binary64) : ℤ :=
  if 2 ^ 1074 ≤ x.units then Nat.log 10 (x.units / 2 ^ 1074) + 1
  else -(Nat.log 10 ((2 ^ 1074 - 1) / x.units) : ℤ)

/-- The magnitude times `10 ^ s`, as a ratio. -/
def scaled (x : Binary64) (s : ℤ) : ℕ × ℕ :=
  if 0 ≤ s then (x.units * 10 ^ s.toNat, 2 ^ 1074) else (x.units, 2 ^ 1074 * 10 ^ (-s).toNat)

/-- Whether `c / 10 ^ s` is read as the magnitude. -/
def readsBack (x : Binary64) (c : ℕ) (s : ℤ) : Bool :=
  (if 0 ≤ s then ofRatio false c (10 ^ s.toNat) else ofRatio false (c * 10 ^ (-s).toNat) 1).any
    fun y => y.units == x.units

/-- The number of `n` digits nearest to the magnitude, of those that are read as it. -/
def shortestOf (x : Binary64) (n : ℕ) : Option ℕ :=
  let s := n - x.decpt
  let r := x.scaled s
  let lo := r.1 / r.2
  match x.readsBack lo s, x.readsBack (lo + 1) s with
  | true, true => some (roundHalfEven r.1 r.2)
  | true, false => some lo
  | false, true => some (lo + 1)
  | false, false => none

/-- How many digits are needed, and the number they make; 17 are always enough. -/
def shortestDigits (x : Binary64) : Option (ℕ × ℕ) :=
  (List.range 17).findSome? fun n => (x.shortestOf (n + 1)).map (n + 1, ·)

/-- The digits of the shortest decimal number that is read as the magnitude, and its exponent. -/
def shortest (x : Binary64) : Str × ℤ :=
  match x.shortestDigits with
  | some (n, c) =>
      (((decimal c).reverse.dropWhile (· == 0x30)).reverse, x.decpt + (decimal c).length - n)
  | none => ([], 0)

/-- Digits with a point, or with an exponent where the number is large or small. -/
def layout (digits : Str) (decpt : ℤ) : Str :=
  if -4 < decpt ∧ decpt ≤ 16 then
    if decpt ≤ 0 then lit "0." ++ List.replicate (-decpt).toNat 0x30 ++ digits
    else if (digits.length : ℤ) ≤ decpt then
      digits ++ List.replicate (decpt.toNat - digits.length) 0x30 ++ lit ".0"
    else digits.take decpt.toNat ++ lit "." ++ digits.drop decpt.toNat
  else
    digits.take 1 ++ (if digits.length ≤ 1 then [] else lit "." ++ digits.drop 1) ++
      lit (if decpt - 1 < 0 then "e-" else "e+") ++ decimal2 (decpt - 1).natAbs

/-- `repr(x)`: the shortest decimal number that is read as the double. -/
def repr (x : Binary64) : Str :=
  (if x.neg then lit "-" else []) ++
    (if x.units = 0 then lit "0.0" else layout x.shortest.1 x.shortest.2)

theorem writable_shortest (x : Binary64) : Writable x.shortest.1 := by
  unfold shortest
  cases x.shortestDigits with
  | none => exact writable_nil
  | some r =>
      refine (writable_decimal r.2).of_subset fun c hc => ?_
      have hmem := List.dropWhile_subset _ (List.mem_reverse.mp hc)
      exact List.mem_reverse.mp hmem

theorem writable_zeros (n : ℕ) : Writable (List.replicate n 0x30) := by
  intro c hc
  rw [(List.mem_replicate.mp hc).2]
  decide

theorem writable_layout {digits : Str} (h : Writable digits) (decpt : ℤ) :
    Writable (layout digits decpt) := by
  have htake : ∀ n, Writable (digits.take n) := fun n => h.of_subset (List.take_subset n digits)
  have hdrop : ∀ n, Writable (digits.drop n) := fun n => h.of_subset (List.drop_subset n digits)
  rw [layout]
  split
  · split
    · exact ((writable_lit _).append (writable_zeros _)).append h
    · split
      · exact (h.append (writable_zeros _)).append (writable_lit _)
      · exact ((htake _).append (writable_lit _)).append (hdrop _)
  · refine (((htake 1).append ?_).append (writable_lit _)).append (writable_decimal2 _)
    split
    · exact writable_nil
    · exact (writable_lit _).append (hdrop 1)

theorem writable_sign (neg : Bool) : Writable (if neg then lit "-" else []) := by
  cases neg with
  | true => exact writable_lit _
  | false => exact writable_nil

theorem writable_repr (x : Binary64) : Writable x.repr := by
  refine (writable_sign x.neg).append ?_
  split
  · exact writable_lit _
  · exact writable_layout x.writable_shortest _

/-- `f"{x:.3f}"`. -/
def fixed3 (x : Binary64) : Str :=
  let n := roundHalfEven (x.units * 1000) (2 ^ 1074)
  (if x.neg then lit "-" else []) ++ decimal (n / 1000) ++ lit "." ++
    (decimal (n % 1000 + 1000)).drop 1

theorem writable_fixed3 (x : Binary64) : Writable x.fixed3 := by
  rw [fixed3]
  generalize roundHalfEven (x.units * 1000) (2 ^ 1074) = n
  have hint : Writable (decimal (n / 1000)) := writable_decimal _
  have hfrac : Writable ((decimal (n % 1000 + 1000)).drop 1) :=
    (writable_decimal _).of_subset (List.drop_subset 1 _)
  exact (((writable_sign x.neg).append hint).append (writable_lit ".")).append hfrac

end Binary64
