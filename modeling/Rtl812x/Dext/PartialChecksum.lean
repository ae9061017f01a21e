import Rtl812x.Lib.OnesComplement
import Rtl812x.Dext.Offload

/-!
# The software partial checksum

`txPartialChecksum` leaves the checksum of TCP and UDP frames to the chip and computes every other
one itself: it sums the frame from `start`, over the seed the stack left at `stuff`, folds the
carries and stores the complement at `stuff`.

* `hardwareChecksum` — the four requests that go to the chip; the others take the software path.
* `sumBytes_eq_wordSum` — **the 32-bit accumulator does not overflow** on a frame that fits the
  transmit buffer: the sum the code computes is the exact one.
* `foldCarries_spec` — the fold loop keeps the residue modulo `65535` and ends in 16 bits.
* `txPartialChecksum_software` — **the stored checksum closes the sum**: the words of the frame as it
  leaves, plus the seed, add up to a multiple of `65535`.
-/

namespace Rtl812x.Dext

open OnesComplement

/-! ### The words and sums of the code -/

theorem be16_eq_word (f : Frame) (i : ℕ) : be16 f i = word f i := by
  have hlo : (f (i + 1)).toNat < 2 ^ 8 := (f (i + 1)).toNat_lt
  have hhi := Nat.shiftLeft_add_eq_or_of_lt hlo (f i).toNat
  unfold be16 word
  rw [← hhi, Nat.shiftLeft_eq]

/-- The accumulator holds the exact sum as long as that sum stays below `2 ^ 32`. -/
theorem sumBytes_eq_add (f : Frame) (p n acc : ℕ) (h : acc + wordSum f p n < 2 ^ 32) :
    sumBytes f p n acc = acc + wordSum f p n := by
  fun_induction sumBytes f p n acc with
  | case1 => rfl
  | case2 p acc =>
    simp only [wordSum] at h ⊢
    rw [Nat.shiftLeft_eq]
    exact Nat.mod_eq_of_lt h
  | case3 p n acc ih =>
    simp only [wordSum] at h ⊢
    have hacc : (acc + be16 f p) % 2 ^ 32 = acc + word f p := by
      rw [be16_eq_word]
      exact Nat.mod_eq_of_lt (by omega)
    rw [hacc] at ih
    rw [hacc, ih (by omega), Nat.add_assoc]

/-- The exact sum of a stretch no longer than a transmit buffer fits 32 bits. -/
theorem wordSum_lt_of_le_kTxBufferSize (f : Frame) (p : ℕ) {n : ℕ} (hn : n ≤ kTxBufferSize) :
    wordSum f p n < 2 ^ 32 := by
  have hle := wordSum_le f p n
  unfold kTxBufferSize at hn
  omega

/-- **No overflow.** -/
theorem sumBytes_eq_wordSum (f : Frame) (p : ℕ) {n : ℕ} (hn : n ≤ kTxBufferSize) :
    sumBytes f p n 0 = wordSum f p n := by
  have hlt := wordSum_lt_of_le_kTxBufferSize f p hn
  have hsum := sumBytes_eq_add f p n 0 (by omega)
  rw [hsum, Nat.zero_add]

/-- **The fold loop.**  Its result has 16 bits and the residue of its argument. -/
theorem foldCarries_spec (sum : ℕ) :
    foldCarries sum < 2 ^ 16 ∧ foldCarries sum ≡ sum [MOD 65535] := by
  fun_induction foldCarries sum with
  | case1 sum h =>
    rw [Nat.shiftRight_eq_div_pow] at h
    exact ⟨by omega, Nat.ModEq.refl sum⟩
  | case2 sum h ih =>
    have hand : sum &&& 0xffff = sum % 2 ^ 16 := Nat.and_two_pow_sub_one_eq_mod sum 16
    rw [hand, Nat.shiftRight_eq_div_pow] at ih ⊢
    exact ⟨ih.1, ih.2.trans (endAroundCarry_modEq sum)⟩

/-! ### The stored word -/

theorem putBe16_of_ne (f : Frame) (i v : ℕ) {j : ℕ} (h : j ≠ i) (h' : j ≠ i + 1) :
    putBe16 f i v j = f j := by
  simp only [putBe16, Function.update_of_ne h', Function.update_of_ne h]

theorem word_putBe16 (f : Frame) (i : ℕ) {v : ℕ} (hv : v < 2 ^ 16) :
    word (putBe16 f i v) i = v := by
  have hhi : putBe16 f i v i = (v >>> 8).toUInt8 := by
    rw [putBe16, Function.update_of_ne (by omega), Function.update_self]
  have hlo : putBe16 f i v (i + 1) = v.toUInt8 := by rw [putBe16, Function.update_self]
  simp only [word, hhi, hlo, Nat.toUInt8_eq, UInt8.toNat_ofNat', Nat.shiftRight_eq_div_pow]
  omega

/-! ### The two paths -/

/-- The protocol number the code reads out of the frame. -/
def txProto (frame : Frame) : ℕ :=
  if be16 frame 12 = 0x0800 then (frame (kMacHdrLen + 9)).toNat
  else if be16 frame 12 = 0x86DD then (frame (kMacHdrLen + 6)).toNat
  else 0

/-- Where the code expects the transport header. -/
def txL4off (frame : Frame) : ℕ :=
  if be16 frame 12 = 0x0800 then kMacHdrLen + ((frame kMacHdrLen).toNat &&& 0x0f) <<< 2
  else kMacHdrLen + kIPv6HdrLen

/-- The requests the chip's engine serves: the checksum field of a TCP or UDP header over IP. -/
def hardwareChecksum (frame : Frame) (stuff : ℕ) : Prop :=
  (be16 frame 12 = 0x0800 ∨ be16 frame 12 = 0x86DD) ∧
    (txProto frame = ipprotoTcp ∧ stuff = txL4off frame + 16 ∨
      txProto frame = ipprotoUdp ∧ stuff = txL4off frame + 6)

instance (frame : Frame) (stuff : ℕ) : Decidable (hardwareChecksum frame stuff) :=
  inferInstanceAs (Decidable (_ ∧ _))

/-- The complement the code stores, with the zero that UDP must not carry replaced. -/
def softwareChecksum (frame : Frame) (len start : ℕ) : ℕ :=
  let csum := 0xffff - foldCarries (sumBytes frame start (len - start) 0)
  if csum = 0 ∧ txProto frame = ipprotoUdp then 0xffff else csum

/-- What the software path returns. -/
theorem txPartialChecksum_of_not_hardware {frame : Frame} {len start stuff : ℕ}
    (hmin : kMacHdrLen + 20 ≤ len) (hsw : ¬ hardwareChecksum frame stuff) (hstart : start < len)
    (hstuff : stuff + 2 ≤ len) :
    txPartialChecksum frame len start stuff =
      (true, 0, putBe16 frame stuff (softwareChecksum frame len start)) := by
  have hskip : ∀ {e proto off : ℕ}, e = 0x0800 ∨ e = 0x86DD →
      proto = ipprotoTcp ∧ off = 16 ∨ proto = ipprotoUdp ∧ off = 6 →
      ¬ (be16 frame 12 = e ∧ txProto frame = proto ∧ stuff = txL4off frame + off) := by
    rintro e proto off he hoff ⟨rfl, rfl, rfl⟩
    refine hsw ⟨he, ?_⟩
    rcases hoff with ⟨hp, rfl⟩ | ⟨hp, rfl⟩
    · exact .inl ⟨hp, rfl⟩
    · exact .inr ⟨hp, rfl⟩
  unfold txPartialChecksum
  rw [if_neg (by omega)]
  calc _ = _ := if_neg (hskip (.inl rfl) (.inl ⟨rfl, rfl⟩))
    _ = _ := if_neg (hskip (.inl rfl) (.inr ⟨rfl, rfl⟩))
    _ = _ := if_neg (hskip (.inr rfl) (.inl ⟨rfl, rfl⟩))
    _ = _ := if_neg (hskip (.inr rfl) (.inr ⟨rfl, rfl⟩))
    _ = _ := if_neg (by omega)

theorem softwareChecksum_lt (frame : Frame) (len start : ℕ) :
    softwareChecksum frame len start < 2 ^ 16 := by
  simp only [softwareChecksum]
  split <;> omega

theorem softwareChecksum_ne_zero_of_udp {frame : Frame} (len start : ℕ)
    (h : txProto frame = ipprotoUdp) : softwareChecksum frame len start ≠ 0 := by
  simp only [softwareChecksum, h, and_true]
  split <;> omega

/-- The stored word is the negative of the frame's sum. -/
theorem softwareChecksum_add_modEq (frame : Frame) {len : ℕ} (start : ℕ) (hlen : len ≤ kTxBufferSize) :
    softwareChecksum frame len start + wordSum frame start (len - start) ≡ 0 [MOD 65535] := by
  have hsum := sumBytes_eq_wordSum frame start (show len - start ≤ kTxBufferSize by omega)
  obtain ⟨hlt, hmod⟩ := foldCarries_spec (wordSum frame start (len - start))
  simp only [softwareChecksum, hsum]
  unfold Nat.ModEq at hmod ⊢
  split <;> omega

/-- **The software checksum.**  On every frame that fits a transmit buffer and every request that
takes the software path: the call succeeds with `opts2 = 0`, changes only the two bytes at `stuff`,
never overflows its accumulator (the sum of every prefix of the stretch is below `2 ^ 32`, and the
computed sum is the exact one), and leaves a frame whose words from `start`, plus the seed that was
at `stuff`, sum to a multiple of `65535`; the word stored for UDP is not zero. -/
theorem txPartialChecksum_software (frame : Frame) (len start stuff : ℕ) (hlen : len ≤ 32768)
    (hstart : start ≤ stuff) (heven : (stuff - start) % 2 = 0) (hstuff : stuff + 2 ≤ len)
    (hmin : kMacHdrLen + 20 ≤ len) (hsw : ¬ hardwareChecksum frame stuff) :
    ∃ out : Frame, txPartialChecksum frame len start stuff = (true, 0, out) ∧
      (∀ i, i ≠ stuff → i ≠ stuff + 1 → out i = frame i) ∧
      (∀ m ≤ len - start, wordSum frame start m < 2 ^ 32) ∧
      sumBytes frame start (len - start) 0 = wordSum frame start (len - start) ∧
      wordSum out start (len - start) + word frame stuff ≡ 0 [MOD 65535] ∧
      (txProto frame = ipprotoUdp → word out stuff ≠ 0) := by
  have hfit : len ≤ kTxBufferSize := hlen
  refine ⟨_, txPartialChecksum_of_not_hardware hmin hsw (by omega) hstuff,
    fun i hi hi' => putBe16_of_ne _ _ _ hi hi',
    fun m hm => wordSum_lt_of_le_kTxBufferSize frame start (by omega),
    sumBytes_eq_wordSum frame start (by omega), ?_, ?_⟩
  · -- the new sum is the old one with the seed replaced by the stored word
    obtain ⟨k, hk⟩ : ∃ k, stuff = start + 2 * k := ⟨(stuff - start) / 2, by omega⟩
    have hreplace := wordSum_replace (b := putBe16 frame stuff (softwareChecksum frame len start))
      (c := frame) k (p := start) (n := len - start) (by omega)
      (fun i hi hi' => putBe16_of_ne _ _ _ (by omega) (by omega))
    rw [← hk, word_putBe16 frame stuff (softwareChecksum_lt frame len start)] at hreplace
    have hclose := softwareChecksum_add_modEq frame start hfit
    rw [hreplace, Nat.add_comm]
    exact hclose
  · intro hudp
    rw [word_putBe16 frame stuff (softwareChecksum_lt frame len start)]
    exact softwareChecksum_ne_zero_of_udp len start hudp

/-- A UDP frame over IPv4 whose checksum field the stack placed at offset 36, inside the UDP header
but not at its checksum: every byte is `0xff` but the type and protocol bytes. -/
def oddRequest : Frame := fun i =>
  if i = 12 then 0x08 else if i = 13 then 0x00 else if i = 14 then 0x45 else if i = 23 then 17
  else 0xff

/-- The software path on a UDP frame of odd length. -/
theorem txPartialChecksum_software_udp :
    ¬ hardwareChecksum oddRequest 36 ∧ txProto oddRequest = ipprotoUdp ∧
      ∃ out : Frame, txPartialChecksum oddRequest 61 34 36 = (true, 0, out) ∧
        (∀ i, i ≠ 36 → i ≠ 36 + 1 → out i = oddRequest i) ∧
        (∀ m ≤ 61 - 34, wordSum oddRequest 34 m < 2 ^ 32) ∧
        sumBytes oddRequest 34 (61 - 34) 0 = wordSum oddRequest 34 (61 - 34) ∧
        wordSum out 34 (61 - 34) + word oddRequest 36 ≡ 0 [MOD 65535] ∧
        (txProto oddRequest = ipprotoUdp → word out 36 ≠ 0) :=
  ⟨by decide, by decide,
    txPartialChecksum_software oddRequest 61 34 36 (by decide) (by decide) (by decide) (by decide)
      (by decide) (by decide)⟩

end Rtl812x.Dext
