import Rtl812x.Dext.Rx
import Rtl812x.Kext.RxFrame

/-!
# The receive checksum verdict in the two drivers

The chip reports on the checksums of a frame in the two words of its last descriptor: that the
frame is IPv4 in `opts2` (`RxV4F`), whether the checks failed, and for which protocol they were
made, in `opts1`.  The kext reads them so (`getChecksumResult`); the dext (`rxRingService`) reads
all of them from `opts2`, where bit 16 is the VLAN flag and the low half is the tag.

* `HeaderGood`, `DataGood` — the verdicts on the IPv4 header and on the TCP or UDP data, taken from a
  word that holds their bits;
* `rxServiceOne_reports`, `getChecksumResult_sets` — what the drivers record on a packet;
* `sameVerdict_iff` — **the drivers agree on a descriptor exactly when its two words do**.
-/

namespace Rtl812x.Agreement

variable {opts1 opts2 : UInt32}

/-- The word names a protocol and does not report its check as failed. -/
def DataGood (w : UInt32) : Prop :=
  w &&& Kext.rxTCPT ≠ 0 ∧ w &&& Kext.rxTCPF = 0 ∨ w &&& Kext.rxUDPT ≠ 0 ∧ w &&& Kext.rxUDPF = 0

instance (w : UInt32) : Decidable (DataGood w) := inferInstanceAs (Decidable (_ ∨ _))

/-- The frame is IPv4 and the word does not report its header check as failed. -/
def HeaderGood (w opts2 : UInt32) : Prop := opts2 &&& Kext.rxV4F ≠ 0 ∧ w &&& Kext.rxIPF = 0

instance (w opts2 : UInt32) : Decidable (HeaderGood w opts2) := inferInstanceAs (Decidable (_ ∧ _))

/-! ### The dext -/

/-- A packet taken off a good descriptor gets the flags, if there are any to report. -/
theorem rxServiceOne_reports (p : ℕ) (s : Dext.RxSide)
    (hgood : ¬ Dext.rxBad (s.rxRing s.rxNextDescIndex).opts1) :
    (Dext.rxServiceOne p s).rxChecksumInfo p =
      let csum := Dext.rxCsumFlags (s.rxRing s.rxNextDescIndex).opts2
      if csum.ipChecked || csum.dataValid then some csum else s.rxChecksumInfo p := by
  rw [Dext.rxServiceOne, if_neg hgood]
  show (if _ then Function.update s.rxChecksumInfo p _ else s.rxChecksumInfo) p = _
  simp only [apply_ite (fun f : ℕ → Option Dext.RxCsum => f p), Function.update_self]

theorem rxCsumFlags_ipValid :
    (Dext.rxCsumFlags opts2).ipValid = true ↔ HeaderGood opts2 opts2 := by
  simp [Dext.rxCsumFlags, HeaderGood, Dext.rxV4F, Dext.rxIPF, Kext.rxV4F, Kext.rxIPF]

theorem rxCsumFlags_dataValid : (Dext.rxCsumFlags opts2).dataValid = true ↔ DataGood opts2 := by
  simp [Dext.rxCsumFlags, DataGood, Dext.rxTCPT, Dext.rxTCPF, Dext.rxUDPT, Dext.rxUDPF, Kext.rxTCPT,
    Kext.rxTCPF, Kext.rxUDPT, Kext.rxUDPF]

/-! ### The kext -/

/-- The mbuf gets the flags, if there are any. -/
theorem getChecksumResult_sets (m : ℕ) (s : Kext.RxAssembly) :
    ((Kext.getChecksumResult m opts1 opts2 s).mbuf m).csum =
      if (Kext.csumPerformed opts1 opts2).1 ≠ 0 then Kext.csumPerformed opts1 opts2
      else (s.mbuf m).csum := by
  simp only [Kext.getChecksumResult, bne_iff_ne]
  split
  · show (Function.update s.mbuf m _ m).csum = _
    rw [Function.update_self]
  · rfl

/-- The flags are those of the two verdicts. -/
theorem csumPerformed_eq (opts1 opts2 : UInt32) : (Kext.csumPerformed opts1 opts2).1 =
    (if HeaderGood opts1 opts2 then Kext.mbufCsumDidIP ||| Kext.mbufCsumIPGood else 0) |||
    (if DataGood opts1 then Kext.mbufCsumDidData ||| Kext.mbufCsumPseudoHdr else 0) := by
  have hdata : (opts1 &&& Kext.rxTCPT != 0 && opts1 &&& Kext.rxTCPF == 0 ||
      opts1 &&& Kext.rxUDPT != 0 && opts1 &&& Kext.rxUDPF == 0) = decide (DataGood opts1) := by
    rw [Bool.eq_iff_iff, decide_eq_true_eq]
    simp only [DataGood, Bool.or_eq_true, Bool.and_eq_true, bne_iff_ne, beq_iff_eq]
  simp only [Kext.csumPerformed, hdata, Bool.and_eq_true, bne_iff_ne, beq_iff_eq, decide_eq_true_eq]
  by_cases hgood : DataGood opts1
  · rw [if_pos hgood, if_pos hgood]
    rfl
  · rw [if_neg hgood, if_neg hgood, UInt32.or_zero]
    rfl

theorem csumPerformed_ipGood : (Kext.csumPerformed opts1 opts2).1 &&& Kext.mbufCsumIPGood ≠ 0 ↔
    HeaderGood opts1 opts2 := by
  rw [csumPerformed_eq]
  by_cases hheader : HeaderGood opts1 opts2 <;> by_cases hdata : DataGood opts1 <;>
    simp only [hheader, hdata, if_true, if_false] <;> decide

theorem csumPerformed_didData :
    (Kext.csumPerformed opts1 opts2).1 &&& Kext.mbufCsumDidData ≠ 0 ↔ DataGood opts1 := by
  rw [csumPerformed_eq]
  by_cases hheader : HeaderGood opts1 opts2 <;> by_cases hdata : DataGood opts1 <;>
    simp only [hheader, hdata, if_true, if_false] <;> decide

/-! ### The two together -/

/-- The drivers report the same on the header checksum, and the same on the data checksum. -/
def SameVerdict (opts1 opts2 : UInt32) : Prop :=
  ((Dext.rxCsumFlags opts2).ipValid = true ↔
    (Kext.csumPerformed opts1 opts2).1 &&& Kext.mbufCsumIPGood ≠ 0) ∧
  ((Dext.rxCsumFlags opts2).dataValid = true ↔
    (Kext.csumPerformed opts1 opts2).1 &&& Kext.mbufCsumDidData ≠ 0)

instance (opts1 opts2 : UInt32) : Decidable (SameVerdict opts1 opts2) :=
  inferInstanceAs (Decidable (_ ∧ _))

/-- **The drivers agree on a descriptor exactly when its two words do**: on the header bit of an
IPv4 frame, and on the verdict of the protocol bits. -/
theorem sameVerdict_iff (opts1 opts2 : UInt32) : SameVerdict opts1 opts2 ↔
    (opts2 &&& Kext.rxV4F ≠ 0 → (opts2 &&& Kext.rxIPF = 0 ↔ opts1 &&& Kext.rxIPF = 0)) ∧
    (DataGood opts2 ↔ DataGood opts1) := by
  rw [SameVerdict, rxCsumFlags_ipValid, rxCsumFlags_dataValid, csumPerformed_ipGood,
    csumPerformed_didData, HeaderGood, HeaderGood, and_congr_right_iff]

/-- A good TCP frame over IPv4 with VLAN tag 5, and a frame whose header check failed. -/
theorem verdicts_differ :
    ¬ SameVerdict (firstFrag ||| lastFrag ||| Kext.rxTCPT ||| 64)
      (Kext.rxV4F ||| Kext.rxVlanTag ||| 0x0500) ∧
    ¬ SameVerdict (firstFrag ||| lastFrag ||| Kext.rxIPF ||| 64) Kext.rxV4F ∧
    (Dext.rxCsumFlags (Kext.rxV4F ||| Kext.rxVlanTag ||| 0x0500)).ipValid = false ∧
    (Dext.rxCsumFlags Kext.rxV4F).ipValid = true := by
  decide

end Rtl812x.Agreement
