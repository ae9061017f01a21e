import Mathlib.Logic.Function.Basic
import Rtl812x.Hw.Regs

/-!
# Transmit offload preparation

What `txDequeueAction` computes for one packet before it writes the descriptor: where the frame
lies in its buffer (`rtl8127TxBufferView`), the segmentation set-up (`prepareTSO4`,
`prepareTSO6`), the partial checksum (`txPartialChecksum`), and from them the command bits, the
second descriptor word and the frame bytes the chip will read (`txOffload`).

A frame is the function from offsets to bytes; the word reads `bswap16(addr[i])` of a
little-endian host are the big-endian reads `be16`.  The masks of the framework's flag words are
the fields of `TxPacket`.
-/

namespace Rtl812x.Dext

def kTxBufferSize : ℕ := 32768
def kTxDescLenMask : UInt32 := 0xFFFF
def mssMax : ℕ := 0x7ff
def ipprotoTcp : ℕ := 6
def ipprotoUdp : ℕ := 17

/-- The bytes of a frame, by offset. -/
abbrev Frame := ℕ → UInt8

/-- A packet as the framework hands it over: its buffer, its data and its offload requests. -/
structure TxPacket where
  id : ℕ
  dataLength : ℕ
  dataOff : ℕ
  dataVirtualAddress : ℕ
  dataIOVirtualAddress : ℕ
  /-- The buffer's bytes, from its base. -/
  buffer : ℕ → UInt8
  mss : ℕ
  tsoIPV4 : Bool
  tsoIPV6 : Bool
  csumPartial : Bool
  csumTCPIPV4 : Bool
  csumUDPIPV4 : Bool
  csumTCPIPV6 : Bool
  csumUDPIPV6 : Bool
  csumIPHdr : Bool
  csumStart : ℕ
  csumStuff : ℕ

/-- The frame's virtual and device address, unless the data does not lie in the buffer. -/
def rtl8127TxBufferView (baseVA baseIOVA offset length capacity : ℕ) : Option (ℕ × ℕ) :=
  if baseVA = 0 ∨ length = 0 ∨ offset > capacity ∨ length > capacity - offset ∨
      baseVA > 2 ^ 64 - 1 - offset ∨ baseIOVA > 2 ^ 64 - 1 - offset then none
  else some (baseVA + offset, baseIOVA + offset)

/-! ### Words of a frame -/

/-- The big-endian 16-bit word at an offset. -/
def be16 (f : Frame) (i : ℕ) : ℕ := (f i).toNat <<< 8 ||| (f (i + 1)).toNat

/-- Store a 16-bit word at an offset, big-endian. -/
def putBe16 (f : Frame) (i v : ℕ) : Frame :=
  Function.update (Function.update f i (v >>> 8).toUInt8) (i + 1) v.toUInt8

/-! ### Segmentation offload -/

/-- Add one word to a 16-bit sum and fold the carry in. -/
def csumAdd (csum w : ℕ) : ℕ :=
  let sum := csum + w
  (sum + sum >>> 16) &&& 0xffff

/-- The pseudo-header sum over `n` words from an offset, seeded with the protocol number. -/
def pseudoHdrSum (f : Frame) (off n : ℕ) : ℕ :=
  (List.range n).foldl (fun csum i => csumAdd csum (be16 f (off + 2 * i))) ipprotoTcp

/-- Seed the TCP checksum of an IPv4 frame; returns the TCP header offset and the frame. -/
def prepareTSO4 (frame : Frame) : ℕ × Frame :=
  let il := ((frame kMacHdrLen).toNat &&& 0x0f) <<< 2
  let csum := pseudoHdrSum frame (kMacHdrLen + 12) 4
  (kMacHdrLen + il, putBe16 frame (kMacHdrLen + il + 16) csum)

/-- Seed the TCP checksum of an IPv6 frame and clear its payload length. -/
def prepareTSO6 (frame : Frame) : ℕ × Frame :=
  let frame := putBe16 frame (kMacHdrLen + 4) 0
  let csum := pseudoHdrSum frame (kMacHdrLen + 8) 16
  (kMacHdrLen + kIPv6HdrLen, putBe16 frame (kMacHdrLen + kIPv6HdrLen + 16) csum)

/-! ### Partial checksum -/

/-- The 32-bit sum of the `n` bytes from `p`, taken as big-endian words. -/
def sumBytes (f : Frame) : (p n sum : ℕ) → ℕ
  | _, 0, sum => sum
  | p, 1, sum => (sum + (f p).toNat <<< 8) % 2 ^ 32
  | p, n + 2, sum => sumBytes f (p + 2) n ((sum + be16 f p) % 2 ^ 32)

/-- Fold the carries of a 32-bit sum into 16 bits. -/
def foldCarries (sum : ℕ) : ℕ :=
  if sum >>> 16 = 0 then sum else foldCarries ((sum &&& 0xffff) + sum >>> 16)
termination_by sum
decreasing_by
  rename_i h
  have hand : sum &&& 0xffff = sum % 2 ^ 16 := Nat.and_two_pow_sub_one_eq_mod sum 16
  rw [hand]
  rw [Nat.shiftRight_eq_div_pow] at h ⊢
  omega

/-- The checksum request of the stack, for the chip or computed here: whether it could be met,
`opts2`, and the frame. -/
def txPartialChecksum (frame : Frame) (len start stuff : ℕ) : Bool × UInt32 × Frame :=
  if len < kMacHdrLen + 20 then (false, 0, frame)
  else
    let etherType := be16 frame 12
    let ihl := ((frame kMacHdrLen).toNat &&& 0x0f) <<< 2
    let l4off := if etherType = 0x0800 then kMacHdrLen + ihl else kMacHdrLen + kIPv6HdrLen
    let proto :=
      if etherType = 0x0800 then (frame (kMacHdrLen + 9)).toNat
      else if etherType = 0x86DD then (frame (kMacHdrLen + 6)).toNat
      else 0
    let v6 := txIPV6F ||| ((l4off &&& tcphoMax).toUInt32 <<< tcphoShift)
    if etherType = 0x0800 ∧ proto = ipprotoTcp ∧ stuff = l4off + 16 then
      (true, txIPCS ||| txTCPCS, frame)
    else if etherType = 0x0800 ∧ proto = ipprotoUdp ∧ stuff = l4off + 6 then
      (true, txIPCS ||| txUDPCS, frame)
    else if etherType = 0x86DD ∧ proto = ipprotoTcp ∧ stuff = l4off + 16 then
      (true, txTCPCS ||| v6, frame)
    else if etherType = 0x86DD ∧ proto = ipprotoUdp ∧ stuff = l4off + 6 then
      (true, txUDPCS ||| v6, frame)
    -- software fallback: finish the sum the stack started
    else if start ≥ len ∨ stuff + 2 > len then (false, 0, frame)
    else
      let sum := foldCarries (sumBytes frame start (len - start) 0)
      let csum := 0xffff - sum
      let csum := if csum = 0 ∧ proto = ipprotoUdp then 0xffff else csum
      (true, 0, putBe16 frame stuff csum)

/-! ### The offload of one packet -/

/-- The command bits, `opts2` and the prepared frame of a packet. -/
def txOffload (tsoEnabled : Bool) (mtu : ℕ) (pkt : TxPacket) (frame : Frame) :
    UInt32 × UInt32 × Frame :=
  if tsoEnabled ∧ (pkt.tsoIPV4 ∨ pkt.tsoIPV6) ∧ pkt.dataLength - kMacHdrLen > mtu then
    let segsz := if pkt.mss = 0 ∨ pkt.mss > mssMax then mssMax else pkt.mss
    let opts2 := (segsz.toUInt32 &&& mssMask) <<< mssShift8125
    if pkt.tsoIPV4 then
      let (tcpOff, frame) := prepareTSO4 frame
      (giantSendv4 ||| (tcpOff.toUInt32 <<< gtTcphoShift), opts2, frame)
    else
      let (tcpOff, frame) := prepareTSO6 frame
      (giantSendv6 ||| (tcpOff.toUInt32 <<< gtTcphoShift), opts2, frame)
  else if pkt.csumPartial then
    let (_, opts2, frame) := txPartialChecksum frame pkt.dataLength pkt.csumStart pkt.csumStuff
    (0, opts2, frame)
  else
    let v6 := txIPV6F ||| ((kMacHdrLen + kIPv6HdrLen).toUInt32 <<< tcphoShift)
    let opts2 :=
      if pkt.csumTCPIPV4 ∨ pkt.tsoIPV4 then txIPCS ||| txTCPCS
      else if pkt.csumUDPIPV4 then txIPCS ||| txUDPCS
      else if pkt.csumTCPIPV6 ∨ pkt.tsoIPV6 then txTCPCS ||| v6
      else if pkt.csumUDPIPV6 then txUDPCS ||| v6
      else if pkt.csumIPHdr then txIPCS
      else 0
    (0, opts2, frame)

/-- A frame written back into its packet's buffer. -/
def putFrame (buffer : ℕ → UInt8) (off : ℕ) (frame : Frame) : ℕ → UInt8 :=
  fun j => if j < off then buffer j else frame (j - off)

end Rtl812x.Dext
