import Mathlib.Algebra.BigOperators.Group.List.Basic
import Mathlib.Data.BitVec
import Mathlib.Logic.Function.Basic

/-!
# Firmware images

A firmware file is either a bare array of 32-bit actions, or has a header: four zero bytes, a version,
where the actions start and how many there are, and a byte that makes the sum of all bytes zero.
`rtl8125_fw_format_ok` tells the two apart by the first four bytes and finds the actions.

* `formatOk` — the function; `strscpy` — its copy of the version;
* `strscpy_spec` — the copy stays in its buffer and is always terminated;
* `FormatOk.inImage` — **the actions of an accepted image lie in the image**;
* `formatOk_set` — **an image with a header in which one byte is wrong is not accepted**, unless the
  byte is one of the four that say that there is a header.
-/

namespace Rtl812x.Firmware

abbrev Byte := BitVec 8

/-! ### Reading an image -/

/-- The byte at an offset. -/
def byteAt (fw : List Byte) (i : ℕ) : Byte := fw.getD i 0

/-- `le32_to_cpu` of the word at an offset. -/
def wordAt (fw : List Byte) (i : ℕ) : BitVec 32 :=
  byteAt fw (i + 3) ++ byteAt fw (i + 2) ++ byteAt fw (i + 1) ++ byteAt fw i

/-! ### The version -/

/-- A buffer. -/
abbrev Buffer := ℕ → Byte

/-- The loop of `strscpy`, with `count` places left of which the next is `res`. -/
def strscpyLoop (src : Buffer) : ℕ → ℕ → Buffer → Buffer
  | 0, res, dest => if res ≠ 0 then Function.update dest (res - 1) 0 else dest
  | count + 1, res, dest =>
      let dest := Function.update dest res (src res)
      if src res = 0 then dest else strscpyLoop src count (res + 1) dest

def strscpy (dest src : Buffer) (count : ℕ) : Buffer := strscpyLoop src count 0 dest

/-- `RTL8125_VER_SIZE`. -/
def verSize : ℕ := 32

/-- The text in a buffer is that of another, as far as it goes, and is over before `count` places are. -/
def Copied (dest src : Buffer) (count : ℕ) : Prop :=
  ∃ k < count, dest k = 0 ∧ ∀ j < k, dest j = src j ∧ src j ≠ 0

theorem strscpyLoop_spec (src : Buffer) :
    ∀ (count res : ℕ) (dest : Buffer), 0 < res + count → (∀ j < res, dest j = src j ∧ src j ≠ 0) →
      Copied (strscpyLoop src count res dest) src (res + count) ∧
        ∀ j, res + count ≤ j → strscpyLoop src count res dest j = dest j := by
  intro count
  induction count with
  | zero =>
      intro res dest hpos hcopied
      rw [strscpyLoop, if_pos (by omega)]
      refine ⟨⟨res - 1, by omega, Function.update_self .., fun j hj => ?_⟩, fun j hj => ?_⟩
      · rw [Function.update_of_ne (by omega)]
        exact hcopied j (by omega)
      · exact Function.update_of_ne (by omega) ..
  | succ count ih =>
      intro res dest _ hcopied
      rw [strscpyLoop]
      split
      case isTrue hend =>
        refine ⟨⟨res, by omega, by rw [Function.update_self, hend], fun j hj => ?_⟩, fun j hj => ?_⟩
        · rw [Function.update_of_ne (by omega)]
          exact hcopied j hj
        · exact Function.update_of_ne (by omega) ..
      case isFalse hmore =>
        have hnext : ∀ j < res + 1, Function.update dest res (src res) j = src j ∧ src j ≠ 0 := by
          intro j hj
          by_cases heq : j = res
          · subst heq
            exact ⟨Function.update_self .., hmore⟩
          · rw [Function.update_of_ne heq]
            exact hcopied j (by omega)
        obtain ⟨htext, hrest⟩ := ih (res + 1) _ (by omega) hnext
        rw [show res + (count + 1) = res + 1 + count by omega]
        refine ⟨htext, fun j hj => ?_⟩
        rw [hrest j hj, Function.update_of_ne (by omega)]

/-- **The copy** is terminated, agrees with the text, and changes nothing beyond its buffer. -/
theorem strscpy_spec (dest src : Buffer) {count : ℕ} (h : 0 < count) :
    Copied (strscpy dest src count) src count ∧ ∀ j, count ≤ j → strscpy dest src count j = dest j := by
  have := strscpyLoop_spec src count 0 dest (by omega) (fun j hj => absurd hj (Nat.not_lt_zero j))
  rwa [Nat.zero_add] at this

/-! ### The check -/

/-- `FW_OPCODE_SIZE`. -/
def opcodeSize : ℕ := 4

/-- `sizeof(struct fw_info)`, which is packed. -/
def infoSize : ℕ := 45

def versionOffset : ℕ := 4
def startOffset : ℕ := 36
def lenOffset : ℕ := 40

/-- What the check finds: `rtl_fw->version`, and `pa->code` and `pa->size`. -/
structure Found where
  version : Buffer
  start : ℕ
  size : ℕ

/-- The sum of the bytes, in a byte. -/
def checksum (fw : List Byte) : Byte := fw.foldl (· + ·) 0

/-- `rtl8125_fw_format_ok`. -/
def formatOk (fw : List Byte) (fwName version : Buffer) : Option Found :=
  if fw.length < opcodeSize then none
  else if wordAt fw 0 = 0 then
    if fw.length < infoSize then none
    else if checksum fw ≠ 0 then none
    else
      let start := (wordAt fw startOffset).toNat
      if fw.length < start then none
      else
        let size := (wordAt fw lenOffset).toNat
        if (fw.length - start) / opcodeSize < size then none
        else some ⟨strscpy version (fun i => byteAt fw (versionOffset + i)) verSize, start, size⟩
  else if fw.length % opcodeSize ≠ 0 then none
  else some ⟨strscpy version fwName verSize, 0, fw.length / opcodeSize⟩

/-- What an accepted image has passed. -/
structure FormatOk (fw : List Byte) (fwName version : Buffer) (found : Found) : Prop where
  /-- the actions lie in the image -/
  inImage : found.start + opcodeSize * found.size ≤ fw.length
  /-- an image with a header has all of it, and its bytes add up -/
  header : wordAt fw 0 = 0 → infoSize ≤ fw.length ∧ checksum fw = 0
  /-- the version is a text in its buffer -/
  version : ∃ src, Copied found.version src verSize ∧ ∀ j, verSize ≤ j → found.version j = version j

theorem formatOk_sound {fw : List Byte} {fwName version : Buffer} {found : Found}
    (h : formatOk fw fwName version = some found) : FormatOk fw fwName version found := by
  rw [formatOk] at h
  split at h
  · exact absurd h (by simp)
  split at h
  case isTrue hmagic =>
    split at h
    · exact absurd h (by simp)
    rename_i hlen
    split at h
    · exact absurd h (by simp)
    rename_i hsum
    rw [not_not] at hsum
    dsimp only at h
    split at h
    · exact absurd h (by simp)
    rename_i hstart
    split at h
    · exact absurd h (by simp)
    rename_i hsize
    obtain rfl := Option.some.inj h
    refine ⟨?_, fun _ => ⟨by omega, hsum⟩, _, strscpy_spec _ _ (by decide)⟩
    show (wordAt fw startOffset).toNat + 4 * (wordAt fw lenOffset).toNat ≤ _
    rw [show opcodeSize = 4 from rfl] at hsize
    omega
  case isFalse hmagic =>
    split at h
    · exact absurd h (by simp)
    obtain rfl := Option.some.inj h
    refine ⟨?_, fun hzero => absurd hzero hmagic, _, strscpy_spec _ _ (by decide)⟩
    show 0 + opcodeSize * (fw.length / opcodeSize) ≤ _
    rw [Nat.zero_add]
    exact Nat.mul_div_le _ _

/-! ### One wrong byte -/

theorem checksum_eq_sum (fw : List Byte) : checksum fw = fw.sum := by
  rw [checksum, List.sum_eq_foldl]

theorem checksum_set {fw : List Byte} {i : ℕ} (hi : i < fw.length) (b : Byte) :
    checksum (fw.set i b) = checksum fw + (b - fw[i]) := by
  rw [checksum_eq_sum, checksum_eq_sum, List.sum_set', dif_pos hi, neg_add_eq_sub]

theorem byteAt_set_of_ne {fw : List Byte} {i j : ℕ} (h : j ≠ i) (b : Byte) :
    byteAt (fw.set i b) j = byteAt fw j := by
  rw [byteAt, byteAt, List.getD_eq_getElem?_getD, List.getD_eq_getElem?_getD,
    List.getElem?_set_ne (Ne.symm h)]

/-- **One wrong byte**: if an image with a header is accepted, then it is not accepted with any other
byte in any one place behind its first four bytes. -/
theorem formatOk_set {fw : List Byte} {fwName version : Buffer} {found : Found}
    (h : formatOk fw fwName version = some found) (hheader : wordAt fw 0 = 0) {i : ℕ} (hi : 4 ≤ i)
    (hlen : i < fw.length) {b : Byte} (hb : b ≠ fw[i]) : formatOk (fw.set i b) fwName version = none := by
  obtain ⟨hinfo, hsum⟩ := (formatOk_sound h).header hheader
  have hmagic : wordAt (fw.set i b) 0 = 0 := by
    rw [← hheader, wordAt, wordAt]
    congr 1
    · congr 1
      · congr 1
        · exact byteAt_set_of_ne (by omega) b
        · exact byteAt_set_of_ne (by omega) b
      · exact byteAt_set_of_ne (by omega) b
    · exact byteAt_set_of_ne (by omega) b
  have hwrong : checksum (fw.set i b) ≠ 0 := by
    rw [checksum_set hlen, hsum, zero_add]
    exact sub_ne_zero.mpr hb
  have : infoSize = 45 := rfl
  have : opcodeSize = 4 := rfl
  rw [formatOk, List.length_set, if_neg (by omega), if_pos hmagic, if_neg (by omega), if_pos hwrong]

/-- An image of a header alone, with its last byte spoilt. -/
theorem formatOk_set_last :
    let fw : List Byte := List.replicate 36 0 ++ [45, 0, 0, 0, 0, 0, 0, 0, 0xD3]
    (formatOk fw (fun _ => 0) fun _ => 0).isSome = true ∧
      formatOk (fw.set 44 0) (fun _ => 0) (fun _ => 0) = none := by
  intro fw
  have hok : (formatOk fw (fun _ => 0) fun _ => 0).isSome = true := by decide
  obtain ⟨found, hfound⟩ := Option.isSome_iff_exists.mp hok
  exact ⟨hok, formatOk_set (i := 44) hfound (by decide) (by decide) (by decide) (by decide)⟩

end Rtl812x.Firmware
