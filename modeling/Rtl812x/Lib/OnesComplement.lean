import Mathlib.Data.Nat.ModEq
import Mathlib.Logic.Function.Basic

/-!
# One's-complement sums of byte strings

The sum behind the Internet checksum, over a byte string given by its offsets: the bytes are read
as big-endian 16-bit words, and an odd last byte stands for a word whose low half is zero.  The sum
is exact (a natural number); what a checksum keeps of it is its residue modulo `65535`.

* `word`, `wordSum` — the word at an offset, and the sum over a stretch.
* `wordSum_le` — how large the sum of a stretch can be.
* `wordSum_congr` — **the sum depends on the bytes of its stretch only**.
* `wordSum_replace` — **replacing one aligned word moves the sum by the difference of the words**.
* `wordSum_append_word` — one more word at the end of a stretch.
* `endAroundCarry_modEq` — one end-around carry keeps the residue; `addFolded_spec` — **a sum that is
  folded after each word** keeps it too, and is never zero once it is not.
-/

namespace Rtl812x.OnesComplement

/-- The big-endian word of the two bytes at an offset. -/
def word (b : ℕ → UInt8) (p : ℕ) : ℕ := (b p).toNat * 256 + (b (p + 1)).toNat

theorem word_le (b : ℕ → UInt8) (p : ℕ) : word b p ≤ 65535 := by
  have hhi : (b p).toNat < 256 := (b p).toNat_lt
  have hlo : (b (p + 1)).toNat < 256 := (b (p + 1)).toNat_lt
  unfold word
  omega

/-- The sum of the words of the `n` bytes from an offset, an odd last byte padded with zero. -/
def wordSum (b : ℕ → UInt8) : (p n : ℕ) → ℕ
  | _, 0 => 0
  | p, 1 => (b p).toNat * 256
  | p, n + 2 => word b p + wordSum b (p + 2) n

/-- A stretch of `n` bytes has at most `n / 2 + 1` words. -/
theorem wordSum_le (b : ℕ → UInt8) (p n : ℕ) : wordSum b p n ≤ (n / 2 + 1) * 65535 := by
  fun_induction wordSum b p n with
  | case1 => omega
  | case2 p =>
    have hbyte : (b p).toNat < 256 := (b p).toNat_lt
    omega
  | case3 p n ih =>
    have hword := word_le b p
    omega

theorem wordSum_congr {b c : ℕ → UInt8} (p n : ℕ) (h : ∀ i, p ≤ i → i < p + n → b i = c i) :
    wordSum b p n = wordSum c p n := by
  fun_induction wordSum b p n with
  | case1 => rfl
  | case2 p => simp only [wordSum, h p (le_refl p) (by omega)]
  | case3 p n ih =>
    have hrest := ih (fun i hi hi' => h i (by omega) (by omega))
    simp only [wordSum, word, h p (le_refl p) (by omega), h (p + 1) (by omega) (by omega), hrest]

/-- **Replacing a word.**  Two strings that differ at most in the word `2 * k` bytes into a stretch
have sums that differ by exactly the difference of these words. -/
theorem wordSum_replace {b c : ℕ → UInt8} (k : ℕ) {p n : ℕ} (hk : 2 * k + 2 ≤ n)
    (h : ∀ i, i ≠ p + 2 * k → i ≠ p + 2 * k + 1 → b i = c i) :
    wordSum b p n + word c (p + 2 * k) = wordSum c p n + word b (p + 2 * k) := by
  induction k generalizing p n with
  | zero =>
    obtain ⟨n, rfl⟩ : ∃ m, n = m + 2 := ⟨n - 2, by omega⟩
    have hrest : wordSum b (p + 2) n = wordSum c (p + 2) n :=
      wordSum_congr _ _ (fun i hi _ => h i (by omega) (by omega))
    simp only [wordSum, hrest, Nat.mul_zero, Nat.add_zero]
    omega
  | succ k ih =>
    obtain ⟨n, rfl⟩ : ∃ m, n = m + 2 := ⟨n - 2, by omega⟩
    have hpos : p + 2 * (k + 1) = p + 2 + 2 * k := by omega
    rw [hpos] at h ⊢
    have hrest := ih (p := p + 2) (n := n) (by omega) h
    have hword : word b p = word c p := by
      simp only [word, h p (by omega) (by omega), h (p + 1) (by omega) (by omega)]
    simp only [wordSum, hword]
    omega

/-- A stretch of whole words that is one word longer. -/
theorem wordSum_append_word (b : ℕ → UInt8) (p n : ℕ) :
    wordSum b p (2 * (n + 1)) = wordSum b p (2 * n) + word b (p + 2 * n) := by
  induction n generalizing p with
  | zero => simp [wordSum]
  | succ n ih =>
    have hlong : wordSum b p (2 * (n + 1 + 1)) = word b p + wordSum b (p + 2) (2 * (n + 1)) := rfl
    have hshort : wordSum b p (2 * (n + 1)) = word b p + wordSum b (p + 2) (2 * n) := rfl
    have hpos : p + 2 + 2 * n = p + 2 * (n + 1) := by omega
    rw [hlong, hshort, ih, hpos, Nat.add_assoc]

/-- Adding the carries back in keeps the residue. -/
theorem endAroundCarry_modEq (s : ℕ) : s % 2 ^ 16 + s / 2 ^ 16 ≡ s [MOD 65535] := by
  unfold Nat.ModEq
  omega

/-- Add a word to a sum and fold the carry in once. -/
def addFolded (sum w : ℕ) : ℕ := (sum + w + (sum + w) / 2 ^ 16) % 2 ^ 16

/-- One fold is enough: a nonzero 16-bit sum stays one, and the residue is that of the exact sum. -/
theorem addFolded_spec {sum w : ℕ} (hpos : 0 < sum) (hsum : sum ≤ 65535) (hw : w ≤ 65535) :
    0 < addFolded sum w ∧ addFolded sum w ≤ 65535 ∧ addFolded sum w ≡ sum + w [MOD 65535] := by
  unfold addFolded Nat.ModEq
  by_cases hcarry : sum + w < 2 ^ 16
  · have hdiv : (sum + w) / 2 ^ 16 = 0 := by omega
    rw [hdiv]
    omega
  · have hdiv : (sum + w) / 2 ^ 16 = 1 := by omega
    rw [hdiv]
    omega

end Rtl812x.OnesComplement
