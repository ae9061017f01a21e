import Rtl812x.Lib.Footprint
import Rtl812x.Dext.TxWords
import Rtl812x.Dext.RxMaxSize

/-!
# Where the offload code looks

The offload functions take a pointer to the frame and work on it with offsets that come from the
frame's own bytes.  Here each is a program with its footprint: the offsets it reads or writes.  Erasing
the footprint gives the functions of `Offload` (`txOffloadProg_run`), so that the frame the chip
is given is the one these programs leave.

`describeTcpSyn`, the diagnostic parser that runs over the first frames, is modelled as a program
only; the text it prints is the record `SynInfo` of what stands in it.

* `prepareTSO4Prog_run`, `prepareTSO6Prog_run`, `sumBytesProg_run` — the footprint of each, exactly;
* `inside_txPartialChecksumProg`, `inside_describeTcpSyn` — these two never leave the frame;
* `TsoOverrun` — an IPv4 packet to be segmented is shorter than its header length says;
* `offload_inside_iff` — **the offload code of a packet stays inside its frame exactly when the packet
  is no `TsoOverrun`**.
-/

namespace Rtl812x.Dext

open Footprint

/-- Read the big-endian word at an offset. -/
def readBe16 (i : ℕ) : Prog UInt8 ℕ := do
  let hi ← read i
  let lo ← read (i + 1)
  pure (hi.toNat <<< 8 ||| lo.toNat)

/-- Store a word at an offset, big-endian. -/
def writeBe16 (i v : ℕ) : Prog UInt8 Unit := do
  write i (v >>> 8).toUInt8
  write (i + 1) v.toUInt8

@[simp] theorem readBe16_run (i : ℕ) (f : Frame) : (readBe16 i).run f = ⟨be16 f i, f, [i, i + 1]⟩ := rfl

@[simp] theorem writeBe16_run (i v : ℕ) (f : Frame) :
    (writeBe16 i v).run f = ⟨(), putBe16 f i v, [i, i + 1]⟩ := rfl

/-! ### Segmentation offload -/

/-- The words of the pseudo header, from an offset. -/
def pseudoHdrProg (off n : ℕ) : Prog UInt8 ℕ :=
  fold (fun csum i => do
    let w ← readBe16 (off + 2 * i)
    pure (csumAdd csum w)) ipprotoTcp (List.range n)

theorem pseudoHdrProg_run (off n : ℕ) (f : Frame) :
    (pseudoHdrProg off n).run f =
      ⟨pseudoHdrSum f off n, f, (List.range n).flatMap fun i => [off + 2 * i, off + 2 * i + 1]⟩ :=
  fold_run (fun _ _ => rfl) _ _

def prepareTSO4Prog : Prog UInt8 ℕ := do
  let b ← read kMacHdrLen
  let il := (b.toNat &&& 0x0f) <<< 2
  let csum ← pseudoHdrProg (kMacHdrLen + 12) 4
  writeBe16 (kMacHdrLen + il + 16) csum
  pure (kMacHdrLen + il)

def prepareTSO6Prog : Prog UInt8 ℕ := do
  writeBe16 (kMacHdrLen + 4) 0
  let csum ← pseudoHdrProg (kMacHdrLen + 8) 16
  writeBe16 (kMacHdrLen + kIPv6HdrLen + 16) csum
  pure (kMacHdrLen + kIPv6HdrLen)

theorem prepareTSO4Prog_run (f : Frame) :
    prepareTSO4Prog.run f =
      ⟨(prepareTSO4 f).1, (prepareTSO4 f).2,
        [kMacHdrLen] ++ ((List.range 4).flatMap fun i =>
          [kMacHdrLen + 12 + 2 * i, kMacHdrLen + 12 + 2 * i + 1]) ++
        [(prepareTSO4 f).1 + 16, (prepareTSO4 f).1 + 17]⟩ := by
  simp only [prepareTSO4Prog, bind_run, read_run, pseudoHdrProg_run, writeBe16_run, pure_run,
    List.append_nil, List.append_assoc]
  rfl

theorem prepareTSO6Prog_run (f : Frame) :
    prepareTSO6Prog.run f =
      ⟨(prepareTSO6 f).1, (prepareTSO6 f).2,
        [kMacHdrLen + 4, kMacHdrLen + 5] ++ ((List.range 16).flatMap fun i =>
          [kMacHdrLen + 8 + 2 * i, kMacHdrLen + 8 + 2 * i + 1]) ++
        [(prepareTSO6 f).1 + 16, (prepareTSO6 f).1 + 17]⟩ := by
  simp only [prepareTSO6Prog, bind_run, pseudoHdrProg_run, writeBe16_run, pure_run,
    List.append_nil, List.append_assoc]
  rfl

/-! ### Partial checksum -/

/-- The 32-bit sum of the `n` bytes from `p`. -/
def sumBytesProg : (p n sum : ℕ) → Prog UInt8 ℕ
  | _, 0, sum => pure sum
  | p, 1, sum => do
    let b ← read p
    pure ((sum + b.toNat <<< 8) % 2 ^ 32)
  | p, n + 2, sum => do
    let w ← readBe16 p
    sumBytesProg (p + 2) n ((sum + w) % 2 ^ 32)

/-- It reads each of the bytes once. -/
theorem sumBytesProg_run (p n sum : ℕ) (f : Frame) :
    (sumBytesProg p n sum).run f = ⟨sumBytes f p n sum, f, List.range' p n⟩ := by
  fun_induction sumBytesProg p n sum with
  | case1 p sum => rfl
  | case2 p sum => rfl
  | case3 p n sum ih =>
      simp only [bind_run, readBe16_run, ih, sumBytes]
      rfl

/-- Where the transport header starts: an IPv4 header says how long it is. -/
def l4offProg (etherType : ℕ) : Prog UInt8 ℕ :=
  if etherType = 0x0800 then do
    let b ← read kMacHdrLen
    pure (kMacHdrLen + (b.toNat &&& 0x0f) <<< 2)
  else pure (kMacHdrLen + kIPv6HdrLen)

/-- The protocol of the frame's network header, for the ether types the chip knows. -/
def protoProg (etherType : ℕ) : Prog UInt8 ℕ :=
  if etherType = 0x0800 then do
    let b ← read (kMacHdrLen + 9)
    pure b.toNat
  else if etherType = 0x86DD then do
    let b ← read (kMacHdrLen + 6)
    pure b.toNat
  else pure 0

/-- The sum computed here: read from `start` to the end, store at `stuff`. -/
def softChecksumProg (len start stuff proto : ℕ) : Prog UInt8 (Bool × UInt32) :=
  if start ≥ len ∨ stuff + 2 > len then pure (false, 0)
  else do
    let sum ← sumBytesProg start (len - start) 0
    let csum := 0xffff - foldCarries sum
    writeBe16 stuff (if csum = 0 ∧ proto = ipprotoUdp then 0xffff else csum)
    pure (true, 0)

def txPartialChecksumProg (len start stuff : ℕ) : Prog UInt8 (Bool × UInt32) :=
  if len < kMacHdrLen + 20 then pure (false, 0)
  else do
    let etherType ← readBe16 12
    let l4off ← l4offProg etherType
    let proto ← protoProg etherType
    let v6 := txIPV6F ||| ((l4off &&& tcphoMax).toUInt32 <<< tcphoShift)
    if etherType = 0x0800 ∧ proto = ipprotoTcp ∧ stuff = l4off + 16 then pure (true, txIPCS ||| txTCPCS)
    else if etherType = 0x0800 ∧ proto = ipprotoUdp ∧ stuff = l4off + 6 then
      pure (true, txIPCS ||| txUDPCS)
    else if etherType = 0x86DD ∧ proto = ipprotoTcp ∧ stuff = l4off + 16 then pure (true, txTCPCS ||| v6)
    else if etherType = 0x86DD ∧ proto = ipprotoUdp ∧ stuff = l4off + 6 then pure (true, txUDPCS ||| v6)
    else softChecksumProg len start stuff proto

@[simp] theorem l4offProg_mem (etherType : ℕ) (f : Frame) : ((l4offProg etherType).run f).mem = f := by
  unfold l4offProg
  split <;> rfl

@[simp] theorem l4offProg_value (etherType : ℕ) (f : Frame) :
    ((l4offProg etherType).run f).value =
      if etherType = 0x0800 then kMacHdrLen + ((f kMacHdrLen).toNat &&& 0x0f) <<< 2
      else kMacHdrLen + kIPv6HdrLen := by
  unfold l4offProg
  split <;> rfl

@[simp] theorem protoProg_mem (etherType : ℕ) (f : Frame) : ((protoProg etherType).run f).mem = f := by
  unfold protoProg
  split
  · rfl
  · split <;> rfl

@[simp] theorem protoProg_value (etherType : ℕ) (f : Frame) :
    ((protoProg etherType).run f).value =
      if etherType = 0x0800 then (f (kMacHdrLen + 9)).toNat
      else if etherType = 0x86DD then (f (kMacHdrLen + 6)).toNat
      else 0 := by
  unfold protoProg
  split
  · rfl
  · split <;> rfl

/-- A checksum result and the frame, without the footprint. -/
def erase (r : Outcome UInt8 (Bool × UInt32)) : Bool × UInt32 × Frame := (r.value.1, r.value.2, r.mem)

theorem erase_ite (c : Prop) [Decidable c] (p q : Prog UInt8 (Bool × UInt32)) (f : Frame) :
    erase ((if c then p else q).run f) = if c then erase (p.run f) else erase (q.run f) := by
  split <;> rfl

theorem erase_softChecksumProg (len start stuff proto : ℕ) (f : Frame) :
    erase ((softChecksumProg len start stuff proto).run f) =
      if start ≥ len ∨ stuff + 2 > len then (false, 0, f)
      else
        let csum := 0xffff - foldCarries (sumBytes f start (len - start) 0)
        (true, 0, putBe16 f stuff (if csum = 0 ∧ proto = ipprotoUdp then 0xffff else csum)) := by
  rw [softChecksumProg, erase_ite]
  split
  · rfl
  · simp only [bind_run, sumBytesProg_run, writeBe16_run]
    rfl

/-- Without its footprint the program is `txPartialChecksum`. -/
theorem erase_txPartialChecksumProg (len start stuff : ℕ) (f : Frame) :
    erase ((txPartialChecksumProg len start stuff).run f) = txPartialChecksum f len start stuff := by
  rw [txPartialChecksumProg, txPartialChecksum, erase_ite]
  split
  · rfl
  · have hbind : ∀ (p : Prog UInt8 ℕ) (k : ℕ → Prog UInt8 (Bool × UInt32)) (f : Frame),
        erase ((p >>= k).run f) = erase ((k (p.run f).value).run (p.run f).mem) := fun _ _ _ => rfl
    simp only [hbind, readBe16_run, l4offProg_mem, l4offProg_value, protoProg_mem, protoProg_value, erase_ite,
      erase_softChecksumProg]
    rfl

section Bounds

variable {len : ℕ} {f : Frame}

theorem inside_readBe16 {S : ℕ → Prop} (i : ℕ) : Inside S (readBe16 i) f ↔ S i ∧ S (i + 1) := by
  simp [readBe16]

theorem inside_writeBe16 {S : ℕ → Prop} (i v : ℕ) : Inside S (writeBe16 i v) f ↔ S i ∧ S (i + 1) := by
  simp [writeBe16]

theorem inside_sumBytesProg {p n : ℕ} (sum : ℕ) (h : p + n ≤ len) :
    Inside (· < len) (sumBytesProg p n sum) f := by
  intro i hi
  rw [sumBytesProg_run, List.mem_range'_1] at hi
  omega

theorem inside_l4offProg (etherType : ℕ) (h : kMacHdrLen < len) :
    Inside (· < len) (l4offProg etherType) f := by
  unfold l4offProg
  split <;> simp [h]

theorem inside_protoProg (etherType : ℕ) (h : kMacHdrLen + 9 < len) :
    Inside (· < len) (protoProg etherType) f := by
  have h6 : kMacHdrLen + 6 < len := by omega
  unfold protoProg
  split
  · simp [h]
  · split <;> simp [h6]

theorem inside_softChecksumProg (len start stuff proto : ℕ) (f : Frame) :
    Inside (· < len) (softChecksumProg len start stuff proto) f := by
  unfold softChecksumProg
  split
  · simp
  case isFalse h =>
    simp only [inside_bind, inside_writeBe16, inside_pure, and_true]
    refine ⟨inside_sumBytesProg 0 ?_, ?_, ?_⟩ <;> omega

/-- **The partial checksum stays inside the frame**, wherever it is asked to start and to store. -/
theorem inside_txPartialChecksumProg (len start stuff : ℕ) (f : Frame) :
    Inside (· < len) (txPartialChecksumProg len start stuff) f := by
  unfold txPartialChecksumProg
  split
  · simp
  case isFalse hlen =>
    have hhdr : 34 ≤ len := by
      simp only [kMacHdrLen] at hlen
      omega
    simp only [inside_bind, inside_readBe16]
    refine ⟨by omega, inside_l4offProg _ ?_, inside_protoProg _ ?_, ?_⟩
    · rw [kMacHdrLen]
      omega
    · rw [kMacHdrLen]
      omega
    · -- the four requests the chip serves touch nothing more
      split
      · simp
      split
      · simp
      split
      · simp
      split
      · simp
      · exact inside_softChecksumProg _ _ _ _ _

end Bounds

/-! ### The parser of the diagnostics -/

def thSyn : UInt8 := 0x02

/-- What the line about a SYN says: IPv4 or not, the ports, the flags, the length, the checksum field
and whether it is a full checksum (0), a pseudo-header seed (1) or something else (2). -/
structure SynInfo where
  v4 : Bool
  sport : ℕ
  dport : ℕ
  flags : UInt8
  len : ℕ
  csumfield : ℕ
  kind : ℕ
deriving DecidableEq, Repr

/-- The offset of the TCP header of an unfragmented IPv4 frame. -/
def synV4Prog : Prog UInt8 (Option ℕ) := do
  let b ← read 14
  if b.toNat >>> 4 ≠ 4 then pure none
  else do
    let proto ← read 23
    if proto.toNat ≠ 6 then pure none
    else do
      let b ← read 14
      let ipHeaderLen := (b.toNat &&& 0x0f) <<< 2
      if ipHeaderLen < 20 then pure none
      else do
        let hi ← read 20
        if hi &&& 0x1f ≠ 0 then pure none
        else do
          let lo ← read 21
          if lo ≠ 0 then pure none else pure (some (14 + ipHeaderLen))

/-- The offset of the TCP header of an IPv6 frame. -/
def synV6Prog : Prog UInt8 (Option ℕ) := do
  let b ← read 14
  if b.toNat >>> 4 ≠ 6 then pure none
  else do
    let proto ← read 20
    if proto.toNat ≠ 6 then pure none else pure (some 54)

def synL4Prog (et : ℕ) : Prog UInt8 (Option ℕ) :=
  if et = 0x0800 then synV4Prog else if et = 0x86DD then synV6Prog else pure none

/-- The sum of the address words of the network header. -/
def addressSumProg (et : ℕ) : Prog UInt8 ℕ :=
  if et = 0x0800 then sumBytesProg 26 8 0 else sumBytesProg 22 32 0

/-- The sums over the segment, and what the checksum field is. -/
def synSumsProg (len et l4 sport dport : ℕ) (flags : UInt8) : Prog UInt8 (Option SynInfo) := do
  let l4len := len - l4
  let addresses ← addressSumProg et
  let ph := addresses + ipprotoTcp
  let field ← readBe16 (l4 + 16)
  let sum ← sumBytesProg l4 l4len (ph + l4len)
  let sumFull := foldCarries sum
  let sumSeed := foldCarries ph
  let kind :=
    if sumFull = 0xffff ∨ sumFull = 0 then 0
    else if field = sumSeed ∨ field = (sumSeed + l4len) % 2 ^ 16 then 1
    else 2
  pure (some ⟨et = 0x0800, sport, dport, flags, len, field, kind⟩)

/-- The TCP header at `l4`: a SYN from or to port 80 is described. -/
def synTcpProg (len et l4 : ℕ) : Prog UInt8 (Option SynInfo) := do
  if len < l4 + 20 then pure none
  else do
    let b ← read (l4 + 12)
    let tcpHeaderLen := (b.toNat >>> 4) <<< 2
    if tcpHeaderLen < 20 ∨ tcpHeaderLen > len - l4 then pure none
    else do
      let flags ← read (l4 + 13)
      if flags &&& thSyn = 0 then pure none
      else do
        let sport ← readBe16 l4
        let dport ← readBe16 (l4 + 2)
        if sport ≠ 80 ∧ dport ≠ 80 then pure none
        else synSumsProg len et l4 sport dport flags

/-- Describe a TCP SYN or SYN-ACK frame of `len` bytes. -/
def describeTcpSyn (len : ℕ) : Prog UInt8 (Option SynInfo) :=
  if len < 54 then pure none
  else do
    let et ← readBe16 12
    let l4 ← synL4Prog et
    match l4 with
    | none => pure none
    | some l4 => synTcpProg len et l4

section SynBounds

variable {len : ℕ} {f : Frame}

theorem inside_synV4Prog (h : 54 ≤ len) : Inside (· < len) synV4Prog f := by
  simp only [synV4Prog, inside_bind, inside_read, inside_ite, inside_pure]
  refine ⟨by omega, fun _ => trivial, fun _ => ⟨by omega, fun _ => trivial, fun _ => ⟨by omega, ?_⟩⟩⟩
  refine ⟨fun _ => trivial, fun _ => ⟨by omega, fun _ => trivial, fun _ => ⟨by omega, ?_⟩⟩⟩
  exact ⟨fun _ => trivial, fun _ => trivial⟩

theorem inside_synV6Prog (h : 54 ≤ len) : Inside (· < len) synV6Prog f := by
  simp only [synV6Prog, inside_bind, inside_read, inside_ite, inside_pure]
  exact ⟨by omega, fun _ => trivial, fun _ => ⟨by omega, fun _ => trivial, fun _ => trivial⟩⟩

theorem inside_synL4Prog (et : ℕ) (h : 54 ≤ len) : Inside (· < len) (synL4Prog et) f := by
  unfold synL4Prog
  split
  · exact inside_synV4Prog h
  · split
    · exact inside_synV6Prog h
    · simp

theorem inside_addressSumProg (et : ℕ) (h : 54 ≤ len) : Inside (· < len) (addressSumProg et) f := by
  unfold addressSumProg
  split
  · exact inside_sumBytesProg 0 (by omega)
  · exact inside_sumBytesProg 0 (by omega)

theorem inside_synSumsProg {l4 : ℕ} (h : 54 ≤ len) (hl4 : l4 + 20 ≤ len) (et sport dport : ℕ)
    (flags : UInt8) : Inside (· < len) (synSumsProg len et l4 sport dport flags) f := by
  simp only [synSumsProg, inside_bind, inside_readBe16, inside_pure, and_true]
  exact ⟨inside_addressSumProg et h, by omega, inside_sumBytesProg _ (by omega)⟩

theorem inside_synTcpProg (h : 54 ≤ len) (et l4 : ℕ) : Inside (· < len) (synTcpProg len et l4) f := by
  unfold synTcpProg
  split
  · simp
  case isFalse hl4 =>
    simp only [inside_bind, inside_read, inside_readBe16, inside_ite, inside_pure]
    refine ⟨by omega, fun _ => trivial, fun _ => ⟨by omega, fun _ => trivial, fun _ => ?_⟩⟩
    exact ⟨by omega, by omega, fun _ => trivial, fun _ => inside_synSumsProg h (by omega) _ _ _ _⟩

/-- **The parser stays inside the frame**, whatever the frame holds. -/
theorem inside_describeTcpSyn (len : ℕ) (f : Frame) : Inside (· < len) (describeTcpSyn len) f := by
  unfold describeTcpSyn
  split
  · simp
  case isFalse hlen =>
    have h : 54 ≤ len := by omega
    simp only [inside_bind, inside_readBe16]
    refine ⟨by omega, inside_synL4Prog _ h, ?_⟩
    split
    · simp
    · exact inside_synTcpProg h _ _

end SynBounds

/-! ### The offload of one packet -/

/-- The offload of a packet: the command bits and the second descriptor word. -/
def txOffloadProg (tsoEnabled : Bool) (mtu : ℕ) (pkt : TxPacket) : Prog UInt8 (UInt32 × UInt32) :=
  if TsoTaken tsoEnabled mtu pkt then
    if pkt.tsoIPV4 then do
      let tcpOff ← prepareTSO4Prog
      pure (giantSendv4 ||| (tcpOff.toUInt32 <<< gtTcphoShift), tsoOpts2 pkt)
    else do
      let tcpOff ← prepareTSO6Prog
      pure (giantSendv6 ||| (tcpOff.toUInt32 <<< gtTcphoShift), tsoOpts2 pkt)
  else if pkt.csumPartial then do
    let r ← txPartialChecksumProg pkt.dataLength pkt.csumStart pkt.csumStuff
    pure (0, r.2)
  else pure (0, csumOpts2 pkt)

/-- Without its footprint the program is `txOffload`. -/
theorem txOffloadProg_run (tsoEnabled : Bool) (mtu : ℕ) (pkt : TxPacket) (f : Frame) :
    (((txOffloadProg tsoEnabled mtu pkt).run f).value.1, ((txOffloadProg tsoEnabled mtu pkt).run f).value.2,
      ((txOffloadProg tsoEnabled mtu pkt).run f).mem) = txOffload tsoEnabled mtu pkt f := by
  unfold txOffloadProg
  by_cases htso : TsoTaken tsoEnabled mtu pkt
  · cases hv4 : pkt.tsoIPV4 with
    | true =>
        rw [txOffload_tso4 htso hv4, if_pos htso, if_pos rfl, bind_run, prepareTSO4Prog_run]
        rfl
    | false =>
        rw [txOffload_tso6 htso hv4, if_pos htso, if_neg Bool.false_ne_true, bind_run,
          prepareTSO6Prog_run]
        rfl
  · cases hsoftware : pkt.csumPartial with
    | true =>
        rw [txOffload_partialCsum htso hsoftware, if_neg htso, if_pos rfl, ← erase_txPartialChecksumProg]
        rfl
    | false =>
        rw [txOffload_csum htso hsoftware, if_neg htso, if_neg Bool.false_ne_true]
        rfl

/-- The parser runs while fewer than 100 frames were described. -/
def synLogProg (synLogged len : ℕ) : Prog UInt8 (Option SynInfo) :=
  if synLogged < 100 then describeTcpSyn len else pure none

/-- The code of `txDequeueAction` that works on the frame of a packet. -/
def txFrameProg (s : TxSide) (synLogged : ℕ) (pkt : TxPacket) :
    Prog UInt8 (UInt32 × UInt32 × Option SynInfo) := do
  let w ← txOffloadProg s.tsoEnabled s.mtu pkt
  let syn ← synLogProg synLogged pkt.dataLength
  pure (w.1, w.2, syn)

/-- An IPv4 packet that is to be segmented ends before the checksum field of the TCP header its header
length leads to. -/
def TsoOverrun (s : TxSide) (pkt : TxPacket) : Prop :=
  TsoTaken s.tsoEnabled s.mtu pkt ∧ pkt.tsoIPV4 = true ∧
    pkt.dataLength < kMacHdrLen + 4 * ((pkt.buffer (pkt.dataOff + kMacHdrLen)).toNat % 16) + 18

instance (s : TxSide) (pkt : TxPacket) : Decidable (TsoOverrun s pkt) :=
  inferInstanceAs (Decidable (_ ∧ _ ∧ _))

section Packet

variable {s : TxSide} {pkt : TxPacket} {f : Frame} {len : ℕ}

/-- IPv4: the header length decides. -/
theorem inside_prepareTSO4Prog_iff (hlen : 34 ≤ len) :
    Inside (· < len) prepareTSO4Prog f ↔ kMacHdrLen + 4 * ((f kMacHdrLen).toNat % 16) + 18 ≤ len := by
  unfold Inside
  rw [prepareTSO4Prog_run, prepareTSO4_fst]
  simp only [List.mem_append, List.mem_flatMap, List.mem_range, List.mem_cons, List.not_mem_nil,
    or_false]
  constructor
  · intro h
    have := h _ (Or.inr (Or.inr rfl))
    omega
  · have hmac : kMacHdrLen = 14 := rfl
    rintro h i ((rfl | ⟨j, hj, rfl | rfl⟩) | rfl | rfl) <;> omega

/-- IPv6: the header has a fixed length. -/
theorem inside_prepareTSO6Prog (hlen : 72 ≤ len) : Inside (· < len) prepareTSO6Prog f := by
  unfold Inside
  rw [prepareTSO6Prog_run]
  have hfst : (prepareTSO6 f).1 = 54 := rfl
  have hmac : kMacHdrLen = 14 := rfl
  simp only [hfst, List.mem_append, List.mem_flatMap, List.mem_range, List.mem_cons,
    List.not_mem_nil, or_false]
  rintro i (((rfl | rfl) | ⟨j, hj, rfl | rfl⟩) | rfl | rfl) <;> omega

/-- A packet that is segmented is longer than the smallest MTU. -/
theorem TsoTaken.length (htso : TsoTaken s.tsoEnabled s.mtu pkt) (hmtu : MtuAccepted s.mtu) :
    75 ≤ pkt.dataLength := by
  obtain ⟨-, -, hlen⟩ := htso
  simp only [MtuAccepted, ethZlen, kMacHdrLen] at hmtu hlen
  omega

/-- **One packet**: the offload code leaves the frame exactly in the overrun case. -/
theorem inside_txFrameProg_iff (hmtu : MtuAccepted s.mtu) (synLogged : ℕ) :
    Inside (· < pkt.dataLength) (txFrameProg s synLogged pkt) (fun i => pkt.buffer (pkt.dataOff + i)) ↔
      ¬ TsoOverrun s pkt := by
  have hsyn : ∀ f, Inside (· < pkt.dataLength) (synLogProg synLogged pkt.dataLength) f := by
    intro f
    unfold synLogProg
    split
    · exact inside_describeTcpSyn _ _
    · simp
  simp only [txFrameProg, inside_bind, hsyn, inside_pure, and_true]
  unfold txOffloadProg TsoOverrun
  by_cases htso : TsoTaken s.tsoEnabled s.mtu pkt
  · have hlen := htso.length hmtu
    rw [if_pos htso]
    cases hv4 : pkt.tsoIPV4 with
    | true =>
        simp only [if_true, inside_bind, inside_pure, and_true, htso, true_and, not_lt]
        exact inside_prepareTSO4Prog_iff (by omega)
    | false =>
        simp only [Bool.false_eq_true, if_false, inside_bind, inside_pure, and_true, false_and,
          and_false, not_false_iff, iff_true]
        exact inside_prepareTSO6Prog (by omega)
  · rw [if_neg htso]
    refine iff_of_true ?_ fun h => htso h.1
    split
    · simp only [inside_bind, inside_pure, and_true]
      exact inside_txPartialChecksumProg _ _ _ _
    · simp

end Packet

/-- **The offload code stays inside the frame** of a well-formed packet, for every accepted MTU, exactly
when the packet is no `TsoOverrun`; and the frame and the descriptor's address are the same byte of
the packet's buffer. -/
theorem offload_inside_iff (s : TxSide) (q synLogged : ℕ) (pkt : TxPacket) (hmtu : MtuAccepted s.mtu)
    (hwell : pkt.WellFormed) :
    let frame : Frame := fun i => pkt.buffer (pkt.dataOff + i)
    ((∀ o ∈ ((txFrameProg s synLogged pkt).run frame).touched, o < pkt.dataLength) ∧
      ∃ va iova,
        rtl8127TxBufferView pkt.dataVirtualAddress pkt.dataIOVirtualAddress pkt.dataOff pkt.dataLength
          kTxBufferSize = some (va, iova) ∧
        va = pkt.dataVirtualAddress + pkt.dataOff ∧ iova = pkt.dataIOVirtualAddress + pkt.dataOff ∧
        pkt.dataOff + pkt.dataLength ≤ kTxBufferSize ∧
        ((txAccept q pkt s).txRing s.hw.txNextDescIndex).addr = iova) ↔
      ¬ TsoOverrun s pkt := by
  intro frame
  obtain ⟨iova, hview⟩ := Option.isSome_iff_exists.mp hwell
  obtain ⟨-, hfit, hbuf, hiova⟩ := txView_bounds hview
  have haddr : ((txAccept q pkt s).txRing s.hw.txNextDescIndex).addr = iova := by
    rw [txAccept_desc hview]
  rw [← inside_txFrameProg_iff hmtu synLogged]
  exact and_iff_left ⟨_, iova, hbuf, rfl, hiova, hfit, haddr⟩

/-- The frame of a 4014-byte packet is left alone beyond its end. -/
theorem offload_inside_tsoPacket :
    ¬ TsoOverrun TxSide.init tsoPacket ∧
      ∀ o ∈ ((txFrameProg TxSide.init 0 tsoPacket).run fun i => tsoPacket.buffer (0 + i)).touched,
        o < 4014 := by
  have hfits : ¬ TsoOverrun TxSide.init tsoPacket := by decide
  exact ⟨hfits, ((offload_inside_iff TxSide.init 0 0 tsoPacket (by decide) (by decide)).mpr hfits).1⟩

/-- The smallest packet that is segmented at an MTU of 60, with the longest IPv4 header. -/
def overrunPacket : TxPacket :=
  { plainPacket 0 with
    dataLength := 75
    buffer := fun i => if i = 14 then 0x4f else 0
    tsoIPV4 := true }

/-- `prepareTSO4` writes the checksum field at offsets 90 and 91 of a frame of 75 bytes. -/
theorem overrunPacket_outside :
    let s := (setMaxTransferUnit 60 (SizeRun.init 0).sized).2.drv.tx
    (setMaxTransferUnit 60 (SizeRun.init 0).sized).1 = true ∧ MtuAccepted s.mtu ∧
      overrunPacket.WellFormed ∧ overrunPacket.dataLength = 75 ∧
      [90, 91] ⊆ ((txFrameProg s 0 overrunPacket).run fun i => overrunPacket.buffer (0 + i)).touched := by
  decide +kernel

end Rtl812x.Dext
