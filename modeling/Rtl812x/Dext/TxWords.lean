import Rtl812x.Hw.RxFilter
import Rtl812x.Dext.FreeSpace

/-!
# The words of a transmit descriptor

`txDequeueAction` or-s the length, the ring flags, the segmentation command and the TCP header offset
into `opts1`, and the segment size or the checksum request into `opts2`.  Nothing is masked on the way
but the length and the segment size: that the fields do not run into each other rests on the buffer
capacity, on the four bits of an IPv4 header length and on the clamp of the segment size.

* `txOffload_tso4`, `txOffload_tso6`, `txOffload_partialCsum`, `txOffload_csum` — the four ways
  `txOffload` goes;
* `TxFields`, `CsumFields` — the words taken apart; `CsumRequest` — what a packet asks the chip for;
* `lengthWord_fields` — a length and a command with low half zero are taken apart again;
* `txDescriptor_decodes` — **the descriptor of every packet decodes to what was asked**, and no bit
  outside the fields is set.
-/

namespace Rtl812x.Dext

/-! ### The ways of the offload -/

/-- The packet is to be segmented by the chip. -/
def TsoTaken (tsoEnabled : Bool) (mtu : ℕ) (pkt : TxPacket) : Prop :=
  tsoEnabled ∧ (pkt.tsoIPV4 ∨ pkt.tsoIPV6) ∧ pkt.dataLength - kMacHdrLen > mtu

instance (tsoEnabled : Bool) (mtu : ℕ) (pkt : TxPacket) : Decidable (TsoTaken tsoEnabled mtu pkt) :=
  inferInstanceAs (Decidable (_ ∧ _ ∧ _))

/-- The segment size the chip is given. -/
def segmentSize (pkt : TxPacket) : ℕ := if pkt.mss = 0 ∨ pkt.mss > mssMax then mssMax else pkt.mss

/-- The second word of a packet that is segmented. -/
def tsoOpts2 (pkt : TxPacket) : UInt32 := ((segmentSize pkt).toUInt32 &&& mssMask) <<< mssShift8125

/-- The second word of a packet that is neither segmented nor asks for a partial checksum. -/
def csumOpts2 (pkt : TxPacket) : UInt32 :=
  let v6 := txIPV6F ||| ((kMacHdrLen + kIPv6HdrLen).toUInt32 <<< tcphoShift)
  if pkt.csumTCPIPV4 ∨ pkt.tsoIPV4 then txIPCS ||| txTCPCS
  else if pkt.csumUDPIPV4 then txIPCS ||| txUDPCS
  else if pkt.csumTCPIPV6 ∨ pkt.tsoIPV6 then txTCPCS ||| v6
  else if pkt.csumUDPIPV6 then txUDPCS ||| v6
  else if pkt.csumIPHdr then txIPCS
  else 0

section Ways

variable {tsoEnabled : Bool} {mtu : ℕ} {pkt : TxPacket} {frame : Frame}

theorem txOffload_tso4 (htso : TsoTaken tsoEnabled mtu pkt) (hv4 : pkt.tsoIPV4 = true) :
    txOffload tsoEnabled mtu pkt frame =
      (giantSendv4 ||| ((prepareTSO4 frame).1.toUInt32 <<< gtTcphoShift), tsoOpts2 pkt,
        (prepareTSO4 frame).2) := by
  rw [TsoTaken] at htso
  rw [txOffload, if_pos htso, if_pos hv4]
  rfl

theorem txOffload_tso6 (htso : TsoTaken tsoEnabled mtu pkt) (hv4 : pkt.tsoIPV4 = false) :
    txOffload tsoEnabled mtu pkt frame =
      (giantSendv6 ||| ((prepareTSO6 frame).1.toUInt32 <<< gtTcphoShift), tsoOpts2 pkt,
        (prepareTSO6 frame).2) := by
  rw [TsoTaken] at htso
  rw [txOffload, if_pos htso, if_neg (by rw [hv4]; exact Bool.false_ne_true)]
  rfl

theorem txOffload_partialCsum (htso : ¬ TsoTaken tsoEnabled mtu pkt) (hsoftware : pkt.csumPartial = true) :
    txOffload tsoEnabled mtu pkt frame =
      (0, (txPartialChecksum frame pkt.dataLength pkt.csumStart pkt.csumStuff).2) := by
  rw [TsoTaken] at htso
  rw [txOffload, if_neg htso, if_pos hsoftware]

theorem txOffload_csum (htso : ¬ TsoTaken tsoEnabled mtu pkt) (hsoftware : pkt.csumPartial = false) :
    txOffload tsoEnabled mtu pkt frame = (0, csumOpts2 pkt, frame) := by
  rw [TsoTaken] at htso
  rw [txOffload, if_neg htso, if_neg (by rw [hsoftware]; exact Bool.false_ne_true)]
  rfl

end Ways

/-! ### The words taken apart -/

/-- The first word, as the chip reads it. -/
structure TxFields where
  length : ℕ
  tcpOffset : ℕ
  giantSendv6 : Bool
  giantSendv4 : Bool
  lastFrag : Bool
  firstFrag : Bool
  ringEnd : Bool
  own : Bool
deriving DecidableEq, Repr

def kGtTcphoMask : UInt32 := 0x7f

/-- Bits 0 to 15, 18 to 24, 25, 26, and 28 to 31. -/
def txFields (w : UInt32) : TxFields where
  length := (w &&& kTxDescLenMask).toNat
  tcpOffset := ((w >>> gtTcphoShift) &&& kGtTcphoMask).toNat
  giantSendv6 := w &&& giantSendv6 != 0
  giantSendv4 := w &&& giantSendv4 != 0
  lastFrag := w &&& lastFrag != 0
  firstFrag := w &&& firstFrag != 0
  ringEnd := w &&& ringEnd != 0
  own := w &&& descOwn != 0

/-- The bits of the first word that belong to no field: 16, 17 and 27. -/
def txUnused : UInt32 := 0x08030000

/-- The segment size in the second word of a packet to be segmented: bits 18 to 28. -/
def mssField (w : UInt32) : ℕ := ((w >>> mssShift8125) &&& mssMask).toNat

/-- The second word of a packet that is not segmented. -/
structure CsumFields where
  tcpOffset : ℕ
  ipv6 : Bool
  ip : Bool
  tcp : Bool
  udp : Bool
deriving DecidableEq, Repr

/-- Bits 18 to 27, and 28 to 31. -/
def csumFields (w : UInt32) : CsumFields where
  tcpOffset := ((w >>> tcphoShift) &&& tcphoMax.toUInt32).toNat
  ipv6 := w &&& txIPV6F != 0
  ip := w &&& txIPCS != 0
  tcp := w &&& txTCPCS != 0
  udp := w &&& txUDPCS != 0

/-- The bits of the second word below the fields. -/
def opts2Unused : UInt32 := 0x0003ffff

/-- The checksums a packet asks the chip for. -/
inductive CsumRequest where
  | none
  | ipHeader
  | tcp (v6 : Bool)
  | udp (v6 : Bool)
deriving DecidableEq, Repr

/-- How the second word says it: the transport header of an IPv6 packet is at offset 54. -/
def CsumRequest.fields : CsumRequest → CsumFields
  | .none => ⟨0, false, false, false, false⟩
  | .ipHeader => ⟨0, false, true, false, false⟩
  | .tcp v6 => ⟨if v6 then 54 else 0, v6, !v6, true, false⟩
  | .udp v6 => ⟨if v6 then 54 else 0, v6, !v6, false, true⟩

/-- What a partial checksum comes to: the TCP or UDP checksum of a frame whose header says so and whose
checksum field is the place to store, or a sum that is computed here. -/
def partialRequest (frame : Frame) (len stuff : ℕ) : CsumRequest :=
  let ihl := 4 * ((frame kMacHdrLen).toNat % 16)
  if len < kMacHdrLen + 20 then .none
  else if be16 frame 12 = 0x0800 then
    if (frame (kMacHdrLen + 9)).toNat = ipprotoTcp ∧ stuff = kMacHdrLen + ihl + 16 then .tcp false
    else if (frame (kMacHdrLen + 9)).toNat = ipprotoUdp ∧ stuff = kMacHdrLen + ihl + 6 then .udp false
    else .none
  else if be16 frame 12 = 0x86DD then
    if (frame (kMacHdrLen + 6)).toNat = ipprotoTcp ∧ stuff = kMacHdrLen + kIPv6HdrLen + 16 then .tcp true
    else if (frame (kMacHdrLen + 6)).toNat = ipprotoUdp ∧ stuff = kMacHdrLen + kIPv6HdrLen + 6 then
      .udp true
    else .none
  else .none

/-- What a packet that is not segmented asks for.  A segmentation request that fits into one frame is
a request for the TCP checksum. -/
def TxPacket.csumRequest (pkt : TxPacket) (frame : Frame) : CsumRequest :=
  if pkt.csumPartial then partialRequest frame pkt.dataLength pkt.csumStuff
  else if pkt.csumTCPIPV4 || pkt.tsoIPV4 then .tcp false
  else if pkt.csumUDPIPV4 then .udp false
  else if pkt.csumTCPIPV6 || pkt.tsoIPV6 then .tcp true
  else if pkt.csumUDPIPV6 then .udp true
  else if pkt.csumIPHdr then .ipHeader
  else .none

/-- Where the TCP header of a packet to be segmented starts. -/
def TxPacket.tcpOffset (pkt : TxPacket) (frame : Frame) : ℕ :=
  if pkt.tsoIPV4 then kMacHdrLen + 4 * ((frame kMacHdrLen).toNat % 16) else kMacHdrLen + kIPv6HdrLen

/-! ### The first word -/

/-- The flags and the segmentation command of a descriptor. -/
def commandWord (cmd : UInt32) (last : Bool) : UInt32 :=
  cmd ||| firstFrag ||| lastFrag ||| (if last then ringEnd else 0) ||| descOwn

/-- A field above the length does not see the length. -/
theorem lengthWord_and (len : ℕ) (k mask : UInt32) (hmask : kTxDescLenMask &&& mask = 0) :
    ((len.toUInt32 &&& kTxDescLenMask) ||| k) &&& mask = k &&& mask := by
  rw [or_and_distrib, UInt32.and_assoc, hmask, UInt32.and_zero, UInt32.zero_or]

/-- The same for a field that is shifted down. -/
theorem lengthWord_shift (len : ℕ) (k shift mask : UInt32)
    (hmask : (kTxDescLenMask >>> shift) &&& mask = 0) :
    (((len.toUInt32 &&& kTxDescLenMask) ||| k) >>> shift) &&& mask = (k >>> shift) &&& mask := by
  rw [UInt32.shiftRight_or, UInt32.shiftRight_and, or_and_distrib, UInt32.and_assoc, hmask,
    UInt32.and_zero, UInt32.zero_or]

/-- **A length below a command word is taken apart again.** -/
theorem lengthWord_fields {len : ℕ} (hlen : len < 2 ^ 16) {k : UInt32} (hk : k &&& kTxDescLenMask = 0) :
    txFields ((len.toUInt32 &&& kTxDescLenMask) ||| k) = { txFields k with length := len } := by
  have hlow : (((len.toUInt32 &&& kTxDescLenMask) ||| k) &&& kTxDescLenMask).toNat = len := by
    rw [or_and_distrib, hk, UInt32.or_zero, UInt32.and_assoc, UInt32.and_self, UInt32.toNat_and]
    rw [show kTxDescLenMask.toNat = 2 ^ 16 - 1 by decide, Nat.and_two_pow_sub_one_eq_mod]
    simp only [Nat.toUInt32, UInt32.toNat_ofNat']
    omega
  simp only [txFields, hlow, lengthWord_shift len k gtTcphoShift kGtTcphoMask (by decide),
    lengthWord_and len k giantSendv6 (by decide), lengthWord_and len k giantSendv4 (by decide),
    lengthWord_and len k lastFrag (by decide), lengthWord_and len k firstFrag (by decide),
    lengthWord_and len k ringEnd (by decide), lengthWord_and len k descOwn (by decide)]

/-- What is to be said of a command word: its low half and its unused bits are zero, and its fields are
these. -/
def CommandIs (k : UInt32) (tcpOffset : ℕ) (v6 v4 last : Bool) : Prop :=
  k &&& kTxDescLenMask = 0 ∧ k &&& txUnused = 0 ∧
    txFields k = ⟨0, tcpOffset, v6, v4, true, true, last, true⟩

instance (k : UInt32) (tcpOffset : ℕ) (v6 v4 last : Bool) : Decidable (CommandIs k tcpOffset v6 v4 last) :=
  inferInstanceAs (Decidable (_ ∧ _ ∧ _))

/-- A TCP offset of at most 127 stays below the segmentation bits. -/
theorem commandIs_tso4 : ∀ t < 128, ∀ last : Bool,
    CommandIs (commandWord (giantSendv4 ||| ((t : ℕ).toUInt32 <<< gtTcphoShift)) last) t false true last := by
  decide +kernel

theorem commandIs_tso6 : ∀ last : Bool,
    CommandIs (commandWord (giantSendv6 ||| ((kMacHdrLen + kIPv6HdrLen).toUInt32 <<< gtTcphoShift)) last)
      (kMacHdrLen + kIPv6HdrLen) true false last := by
  decide +kernel

theorem commandIs_plain : ∀ last : Bool, CommandIs (commandWord 0 last) 0 false false last := by
  decide +kernel

theorem and_15_shift (n : ℕ) : (n &&& 0x0f) <<< 2 = 4 * (n % 16) := by
  have hand : n &&& 0x0f = n % 2 ^ 4 := Nat.and_two_pow_sub_one_eq_mod n 4
  rw [hand, Nat.shiftLeft_eq]
  omega

theorem prepareTSO4_fst (frame : Frame) :
    (prepareTSO4 frame).1 = kMacHdrLen + 4 * ((frame kMacHdrLen).toNat % 16) := by
  rw [prepareTSO4, and_15_shift]

/-- The command word of every packet. -/
theorem txOffload_commandIs (tsoEnabled : Bool) (mtu : ℕ) (pkt : TxPacket) (frame : Frame) (last : Bool) :
    let tso := decide (TsoTaken tsoEnabled mtu pkt)
    CommandIs (commandWord (txOffload tsoEnabled mtu pkt frame).1 last)
      (if tso then pkt.tcpOffset frame else 0) (tso && !pkt.tsoIPV4) (tso && pkt.tsoIPV4) last := by
  intro tso
  by_cases htso : TsoTaken tsoEnabled mtu pkt
  · have hyes : tso = true := decide_eq_true htso
    rw [hyes]
    cases hv4 : pkt.tsoIPV4 with
    | true =>
        rw [txOffload_tso4 htso hv4]
        simp only [TxPacket.tcpOffset, hv4, if_true, prepareTSO4_fst]
        refine commandIs_tso4 _ ?_ last
        rw [kMacHdrLen]
        omega
    | false =>
        rw [txOffload_tso6 htso hv4]
        simp only [TxPacket.tcpOffset, hv4, Bool.false_eq_true, if_false, if_true]
        exact commandIs_tso6 last
  · have hno : tso = false := decide_eq_false htso
    have hcmd : (txOffload tsoEnabled mtu pkt frame).1 = 0 := by
      cases hsoftware : pkt.csumPartial with
      | true => rw [txOffload_partialCsum htso hsoftware]
      | false => rw [txOffload_csum htso hsoftware]
    rw [hno, hcmd]
    exact commandIs_plain last

/-! ### The second word -/

theorem and_mssMask_toNat {n : ℕ} (hn : n < 2048) : (n.toUInt32 &&& mssMask).toNat = n := by
  rw [UInt32.toNat_and, show mssMask.toNat = 2 ^ 11 - 1 by decide, Nat.and_two_pow_sub_one_eq_mod]
  simp only [Nat.toUInt32, UInt32.toNat_ofNat']
  omega

/-- The word of a segment size holds it and nothing else. -/
theorem mssWord (n : ℕ) (hn : n < 2048) :
    mssField ((n.toUInt32 &&& mssMask) <<< mssShift8125) = n ∧
      ((n.toUInt32 &&& mssMask) <<< mssShift8125) &&& ~~~(mssMask <<< mssShift8125) = 0 := by
  constructor
  · -- eleven bits moved up by eighteen stay inside the word, so that they come back whole
    rw [mssField, UInt32.toNat_and, UInt32.toNat_shiftRight, UInt32.toNat_shiftLeft, and_mssMask_toNat hn,
      show mssMask.toNat = 2 ^ 11 - 1 by decide, show mssShift8125.toNat % 32 = 18 by decide,
      Nat.and_two_pow_sub_one_eq_mod, Nat.shiftLeft_eq, Nat.shiftRight_eq_div_pow]
    omega
  · rw [UInt32.shiftLeft_and, UInt32.and_assoc, UInt32.and_not_self, UInt32.and_zero]

theorem segmentSize_eq (pkt : TxPacket) :
    segmentSize pkt = if pkt.mss = 0 then 2047 else min pkt.mss 2047 := by
  unfold segmentSize mssMax
  by_cases hzero : pkt.mss = 0
  · rw [if_pos (Or.inl hzero), if_pos hzero]
  · rw [if_neg hzero]
    by_cases hbig : pkt.mss > 0x7ff
    · rw [if_pos (Or.inr hbig)]
      omega
    · rw [if_neg (by omega)]
      omega

theorem segmentSize_lt (pkt : TxPacket) : segmentSize pkt < 2048 := by
  rw [segmentSize_eq]
  split <;> omega

/-- The words of the requests hold their fields and nothing else. -/
def requestWord : CsumRequest → UInt32
  | .none => 0
  | .ipHeader => txIPCS
  | .tcp false => txIPCS ||| txTCPCS
  | .udp false => txIPCS ||| txUDPCS
  | .tcp true => txTCPCS ||| (txIPV6F ||| ((kMacHdrLen + kIPv6HdrLen).toUInt32 <<< tcphoShift))
  | .udp true => txUDPCS ||| (txIPV6F ||| ((kMacHdrLen + kIPv6HdrLen).toUInt32 <<< tcphoShift))

theorem requestWord_fields (r : CsumRequest) :
    csumFields (requestWord r) = r.fields ∧ requestWord r &&& opts2Unused = 0 := by
  cases r with
  | none | ipHeader => decide
  | tcp v6 | udp v6 => cases v6 <;> decide

theorem csumOpts2_eq {pkt : TxPacket} (hsoftware : pkt.csumPartial = false) (frame : Frame) :
    csumOpts2 pkt = requestWord (pkt.csumRequest frame) := by
  simp only [csumOpts2, TxPacket.csumRequest, hsoftware, Bool.false_eq_true, if_false, Bool.or_eq_true]
  split
  · rfl
  split
  · rfl
  split
  · rfl
  split
  · rfl
  split <;> rfl

/-- The offset of the IPv6 transport header fits into its field. -/
theorem v6Offset_and : (kMacHdrLen + kIPv6HdrLen) &&& tcphoMax = kMacHdrLen + kIPv6HdrLen := by decide

theorem txPartialChecksum_opts2 (frame : Frame) (len start stuff : ℕ) :
    (txPartialChecksum frame len start stuff).2.1 = requestWord (partialRequest frame len stuff) := by
  simp only [txPartialChecksum, partialRequest, and_15_shift]
  by_cases hlen : len < kMacHdrLen + 20
  · simp only [if_pos hlen]
    rfl
  · simp only [if_neg hlen]
    by_cases h4 : be16 frame 12 = 0x0800
    · simp only [h4, if_true, true_and]
      split
      · rfl
      split
      · rfl
      · simp only [Nat.reduceEqDiff, false_and, if_false]
        split <;> rfl
    · by_cases h6 : be16 frame 12 = 0x86DD
      · simp only [h6, Nat.reduceEqDiff, false_and, if_false, if_true, true_and, v6Offset_and]
        split
        · rfl
        split
        · rfl
        · split <;> rfl
      · simp only [h4, h6, false_and, if_false]
        split <;> rfl

section Words

variable {tsoEnabled : Bool} {mtu : ℕ} {pkt : TxPacket} {frame : Frame}

/-- The second word of a packet to be segmented. -/
theorem txOffload_tsoWord (htso : TsoTaken tsoEnabled mtu pkt) :
    (txOffload tsoEnabled mtu pkt frame).2.1 = tsoOpts2 pkt := by
  cases hv4 : pkt.tsoIPV4 with
  | true => rw [txOffload_tso4 htso hv4]
  | false => rw [txOffload_tso6 htso hv4]

/-- The second word of any other packet. -/
theorem txOffload_csumWord (htso : ¬ TsoTaken tsoEnabled mtu pkt) :
    (txOffload tsoEnabled mtu pkt frame).2.1 = requestWord (pkt.csumRequest frame) := by
  cases hsoftware : pkt.csumPartial with
  | true =>
      rw [txOffload_partialCsum htso hsoftware, TxPacket.csumRequest, if_pos hsoftware]
      exact txPartialChecksum_opts2 _ _ _ _
  | false =>
      rw [txOffload_csum htso hsoftware]
      exact csumOpts2_eq hsoftware frame

end Words

/-! ### The descriptor -/

/-- The descriptor a packet is placed with. -/
theorem txAccept_desc {s : TxSide} {q iova : ℕ} {pkt : TxPacket} (hview : txView pkt = some iova) :
    let frame : Frame := fun i => pkt.buffer (pkt.dataOff + i)
    let words := txOffload s.tsoEnabled s.mtu pkt frame
    (txAccept q pkt s).txRing s.hw.txNextDescIndex =
      ⟨(pkt.dataLength.toUInt32 &&& kTxDescLenMask) |||
        commandWord words.1 (decide (s.hw.txNextDescIndex = kTxLastDesc)), words.2.1, iova⟩ := by
  intro frame words
  have haccept : txAccept q pkt s = txPlace q pkt iova s := by rw [txAccept, hview]
  rw [haccept]
  simp only [txPlace, Function.update_self, TxDesc.mk.injEq, commandWord, decide_eq_true_eq]
  refine ⟨?_, rfl, trivial⟩
  split
  · simp only [UInt32.or_assoc]
    rfl
  · simp only [UInt32.or_assoc, UInt32.zero_or]
    rfl

/-- The data of a well-formed packet fits into its buffer. -/
theorem txView_bounds {pkt : TxPacket} {iova : ℕ} (hview : txView pkt = some iova) :
    kMacHdrLen ≤ pkt.dataLength ∧ pkt.dataOff + pkt.dataLength ≤ kTxBufferSize ∧
      rtl8127TxBufferView pkt.dataVirtualAddress pkt.dataIOVirtualAddress pkt.dataOff pkt.dataLength
        kTxBufferSize = some (pkt.dataVirtualAddress + pkt.dataOff, iova) ∧
      iova = pkt.dataIOVirtualAddress + pkt.dataOff := by
  rw [txView] at hview
  split at hview
  · cases hview
  case isFalse hlen =>
    rw [Option.map_eq_some_iff] at hview
    obtain ⟨⟨va, iova'⟩, hbuf, rfl⟩ := hview
    have hsome := hbuf
    rw [rtl8127TxBufferView] at hbuf
    split at hbuf
    · cases hbuf
    case isFalse hfit =>
      cases hbuf
      exact ⟨by omega, by omega, hsome, rfl⟩

/-- **A descriptor decodes to its packet.**  For every well-formed packet, in whatever state it is
taken: the first word holds its length, the ring flags, the one segmentation command that applies and
the TCP header offset; the second word holds the segment size of a packet to be segmented, and else
the checksum request.  No other bit of either word is set. -/
theorem txDescriptor_decodes (s : TxSide) (q : ℕ) (pkt : TxPacket) (hwell : pkt.WellFormed) :
    let frame : Frame := fun i => pkt.buffer (pkt.dataOff + i)
    let desc := (txAccept q pkt s).txRing s.hw.txNextDescIndex
    let tso := decide (TsoTaken s.tsoEnabled s.mtu pkt)
    txFields desc.opts1 =
        { length := pkt.dataLength
          tcpOffset := if tso then pkt.tcpOffset frame else 0
          giantSendv6 := tso && !pkt.tsoIPV4
          giantSendv4 := tso && pkt.tsoIPV4
          lastFrag := true
          firstFrag := true
          ringEnd := decide (s.hw.txNextDescIndex = 1023)
          own := true } ∧
      desc.opts1 &&& txUnused = 0 ∧
      (tso = true →
        mssField desc.opts2 = (if pkt.mss = 0 then 2047 else min pkt.mss 2047) ∧
        desc.opts2 &&& ~~~(mssMask <<< mssShift8125) = 0) ∧
      (tso = false →
        csumFields desc.opts2 = (pkt.csumRequest frame).fields ∧ desc.opts2 &&& opts2Unused = 0) := by
  intro frame desc tso
  obtain ⟨iova, hview⟩ := Option.isSome_iff_exists.mp hwell
  obtain ⟨-, hfit, -⟩ := txView_bounds hview
  have hlen : pkt.dataLength < 2 ^ 16 := by
    rw [kTxBufferSize] at hfit
    omega
  have hdesc : desc = _ := txAccept_desc (s := s) (q := q) hview
  obtain ⟨hlow, hunused, hfields⟩ := txOffload_commandIs s.tsoEnabled s.mtu pkt frame
    (decide (s.hw.txNextDescIndex = kTxLastDesc))
  rw [hdesc]
  refine ⟨?_, ?_, fun hyes => ?_, fun hno => ?_⟩
  · rw [lengthWord_fields hlen hlow, hfields]
    rfl
  · dsimp only
    rw [lengthWord_and _ _ _ (by decide)]
    exact hunused
  · have htso : TsoTaken s.tsoEnabled s.mtu pkt := of_decide_eq_true hyes
    rw [← segmentSize_eq]
    dsimp only
    rw [txOffload_tsoWord htso]
    exact mssWord _ (segmentSize_lt pkt)
  · have htso : ¬ TsoTaken s.tsoEnabled s.mtu pkt := of_decide_eq_false hno
    dsimp only
    rw [txOffload_csumWord htso]
    exact requestWord_fields _

/-- A 4000-byte IPv4 packet to be segmented. -/
def tsoPacket : TxPacket :=
  { plainPacket 0 with
    dataLength := 4014
    buffer := fun i => if i = 14 then 0x45 else 0
    mss := 1448
    tsoIPV4 := true }

/-- It is sent as segments of 1448 bytes, with the TCP header at offset 34. -/
theorem txDescriptor_decodes_tso :
    let desc := (txAccept 0 tsoPacket TxSide.init).txRing 0
    txFields desc.opts1 = ⟨4014, 34, false, true, true, true, false, true⟩ ∧ mssField desc.opts2 = 1448 := by
  obtain ⟨hfields, -, hmss, -⟩ := txDescriptor_decodes TxSide.init 0 tsoPacket (by decide)
  exact ⟨hfields.trans (by decide), (hmss (by decide)).1⟩

end Rtl812x.Dext
