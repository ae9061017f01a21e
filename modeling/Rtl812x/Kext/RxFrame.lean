import Mathlib.Logic.Function.Basic
import Rtl812x.Hw.Regs

/-!
# The kext's receive path, one descriptor at a time

`rxInterrupt` and `rxInterruptVTD` hold two copies of one loop body: drop an errored buffer, take
the mbuf off the descriptor or copy out of it (`replaceOrCopyPacket`), hang it on the frame being
put together, and pass the frame on at its last buffer.  Here is that body, with what the copies
disagree on as a parameter (the length mask); what they do to the ring afterwards is in
`Rtl812x.Kext.Rx`.

An mbuf is a number, its contents are in `RxAssembly.mbuf`, and numbers from `nextMbuf` on have not
been allocated.  The chain from `rxPacketHead` to `rxPacketTail` is the list `rxPacket`.  `trace`
records, in order, every write to an mbuf, every free and every call of `enqueueInputPacket`; no
function reads it.

* `replaceOrCopyPacket`, `discardPacketFragment`, `getChecksumResult` — as the source has them;
* `rxHandle` — the loop body up to the label `nextDesc`;
* `rxTakes`, `rxDelivers` — when the body takes a packet, and when it counts one as good.
-/

namespace Rtl812x.Kext

/-! ### Descriptor bits and mbuf flags -/

def rxRWT : UInt32 := 0x00400000
def rxRUNT : UInt32 := 0x00100000
def rxCRC : UInt32 := 0x00080000
def rxIPF : UInt32 := 0x00010000
def rxUDPF : UInt32 := 0x00008000
def rxTCPF : UInt32 := 0x00004000
def rxUDPT : UInt32 := 0x00040000
def rxTCPT : UInt32 := 0x00020000
def rxVlanTag : UInt32 := 0x00010000
def rxV4F : UInt32 := 0x40000000

def mbufCsumDidIP : UInt32 := 0x0100
def mbufCsumIPGood : UInt32 := 0x0200
def mbufCsumDidData : UInt32 := 0x0400
def mbufCsumPseudoHdr : UInt32 := 0x0800

def kIOEthernetCRCSize : ℤ := 4

/-! ### Mbufs -/

/-- An mbuf: the bytes from `mbuf_datastart` on, how many of them count, and its packet header. -/
structure Mbuf where
  data : List UInt8
  len : ℤ
  pktHdr : Bool
  pktHdrLen : ℤ
  vlanTag : Option UInt16
  csum : UInt32 × UInt32
deriving DecidableEq, Repr

/-- The bytes a reader of the mbuf sees. -/
def Mbuf.bytes (m : Mbuf) : List UInt8 := m.data.take m.len.toNat

/-- What `mbuf_allocpacket` returns, with the length `getPacket` sets. -/
def newMbuf : Mbuf := ⟨[], 0, true, 0, none, (0, 0)⟩

/-- A packet as `enqueueInputPacket` gets it: the lengths and the bytes of its chain, and what the
packet header of its first mbuf says. -/
structure RxPacket where
  lens : List ℤ
  bytes : List UInt8
  pktHdrLen : ℤ
  vlanTag : Option UInt16
  csum : UInt32 × UInt32
deriving DecidableEq, Repr

def packetOf (mbuf : ℕ → Mbuf) (chain : List ℕ) : RxPacket where
  lens := chain.map fun m => (mbuf m).len
  bytes := chain.flatMap fun m => (mbuf m).bytes
  pktHdrLen := (mbuf (chain.headD 0)).pktHdrLen
  vlanTag := (mbuf (chain.headD 0)).vlanTag
  csum := (mbuf (chain.headD 0)).csum

inductive RxEvent where
  | write (m : ℕ)
  | free (ms : List ℕ)
  | enqueue (chain : List ℕ) (pkt : RxPacket)
deriving DecidableEq, Repr

/-- The counters of `etherStats` the receive path counts in. -/
structure RxStats where
  frameTooLongs : ℕ
  fcsErrors : ℕ
  resourceErrors : ℕ
deriving DecidableEq, Repr

/-- What the loop body reads and writes apart from the descriptor ring: the mbufs, the mbuf of each
receive buffer (`rxBufArray[i].mbuf`) and the frame being put together. -/
structure RxAssembly where
  mbuf : ℕ → Mbuf
  nextMbuf : ℕ
  bufMbuf : ℕ → ℕ
  rxPacket : List ℕ
  rxPacketSize : ℤ
  stats : RxStats
  trace : List RxEvent

namespace RxAssembly

def rxPacketHead (s : RxAssembly) : Option ℕ := s.rxPacket.head?
def rxPacketTail (s : RxAssembly) : Option ℕ := s.rxPacket.getLast?

/-- The packets passed to `enqueueInputPacket` so far. -/
def enqueued (s : RxAssembly) : List RxPacket :=
  s.trace.filterMap fun
    | .enqueue _ pkt => some pkt
    | _ => none

/-! ### Writes to mbufs -/

def write (m : ℕ) (f : Mbuf → Mbuf) (s : RxAssembly) : RxAssembly :=
  { s with mbuf := Function.update s.mbuf m (f (s.mbuf m)), trace := s.trace ++ [.write m] }

def mbufSetLen (m : ℕ) (len : ℤ) : RxAssembly → RxAssembly := write m fun b => { b with len := len }

def mbufAdjustLen (m : ℕ) (amount : ℤ) : RxAssembly → RxAssembly :=
  write m fun b => { b with len := b.len + amount }

def mbufClearPktHdr (m : ℕ) : RxAssembly → RxAssembly := write m fun b => { b with pktHdr := false }

def mbufPktHdrSetLen (m : ℕ) (len : ℤ) : RxAssembly → RxAssembly :=
  write m fun b => { b with pktHdrLen := len }

def setVlanTag (m : ℕ) (tag : UInt16) : RxAssembly → RxAssembly :=
  write m fun b => { b with vlanTag := some tag }

def mbufSetCsumPerformed (m : ℕ) (performed value : UInt32) : RxAssembly → RxAssembly :=
  write m fun b => { b with csum := (performed, value) }

/-- `mbuf_setnext(rxPacketTail, m); rxPacketTail = m`. -/
def mbufSetNext (tail m : ℕ) (s : RxAssembly) : RxAssembly :=
  { write tail id s with rxPacket := s.rxPacket ++ [m] }

/-- `mbuf_copy_pkthdr(m, from)` and the `bcopy` of `len` bytes. -/
def mbufCopy (m src len : ℕ) (s : RxAssembly) : RxAssembly :=
  write m (fun b => { b with
    data := (s.mbuf src).data.take len ++ b.data.drop len
    pktHdrLen := (s.mbuf src).pktHdrLen
    vlanTag := (s.mbuf src).vlanTag
    csum := (s.mbuf src).csum }) s

def mbufFree (ms : List ℕ) (s : RxAssembly) : RxAssembly := { s with trace := s.trace ++ [.free ms] }

end RxAssembly

open RxAssembly

/-! ### Buffers for received packets -/

/-- What one call of `getPacket` comes back with.  It asks for a single mbuf, so `chained` should
not happen; the driver tests for it where it replaces a receive buffer. -/
inductive Alloc where
  | failed
  | single
  | chained
deriving DecidableEq, Repr

def getPacket (a : Alloc) (s : RxAssembly) : Option ℕ × RxAssembly :=
  if a = .failed then (none, s)
  else (some s.nextMbuf,
    { s with mbuf := Function.update s.mbuf s.nextMbuf newMbuf, nextMbuf := s.nextMbuf + 1 })

/-- What `replaceOrCopyPacket` leaves: the packet to pass on, the mbuf for the receive buffer, and
whether that is a new one. -/
structure Replacement where
  newPkt : Option ℕ
  bufPkt : ℕ
  replaced : Bool
  asm : RxAssembly

def replaceOrCopyPacket (maxCopySize bufPkt len : ℕ) (a : Alloc) (s : RxAssembly) : Replacement :=
  if maxCopySize < len then
    match getPacket a s with
    | (none, s) => ⟨none, bufPkt, true, s⟩
    | (some m, s) => ⟨some bufPkt, m, true, s⟩
  else
    match getPacket a s with
    | (none, s) => ⟨none, bufPkt, false, s⟩
    | (some m, s) => ⟨some m, bufPkt, false, mbufCopy m bufPkt len s⟩

def discardPacketFragment (s : RxAssembly) : RxAssembly :=
  { s with
    rxPacket := []
    rxPacketSize := 0
    trace := if s.rxPacket = [] then s.trace else s.trace ++ [.free s.rxPacket] }

/-! ### The frame being put together -/

/-- A buffer goes behind the ones the frame has. -/
def linkFragment (tail newPkt : ℕ) (pktSize : ℤ) (s : RxAssembly) : RxAssembly :=
  { mbufSetNext tail newPkt (mbufClearPktHdr newPkt (mbufSetLen newPkt pktSize s)) with
    rxPacketSize := s.rxPacketSize + pktSize }

/-- A buffer is the first of its frame. -/
def startPacket (newPkt : ℕ) (pktSize : ℤ) (s : RxAssembly) : RxAssembly :=
  { mbufSetLen newPkt pktSize s with rxPacket := [newPkt], rxPacketSize := pktSize }

/-- A buffer without `LastFrag`. -/
def addFragment (newPkt : ℕ) (pktSize : ℤ) (s : RxAssembly) : RxAssembly :=
  match s.rxPacketTail with
  | some tail => linkFragment tail newPkt pktSize s
  | none => startPacket newPkt pktSize s

/-- A buffer with `LastFrag`; `pktSize` no longer counts the FCS. -/
def addLastFragment (newPkt : ℕ) (pktSize : ℤ) (s : RxAssembly) : RxAssembly :=
  match s.rxPacketTail with
  | some tail =>
      if 0 < pktSize then linkFragment tail newPkt pktSize s
      else
        -- only (a part of) the FCS is in this buffer, the rest of it ends the one before
        { mbufAdjustLen tail pktSize (mbufFree [newPkt] s) with
          rxPacketSize := s.rxPacketSize + pktSize }
  | none => startPacket newPkt pktSize s

/-- The flags and the value `getChecksumResult` works out from the status words. -/
def csumPerformed (status1 status2 : UInt32) : UInt32 × UInt32 :=
  let ip := if status2 &&& rxV4F != 0 && status1 &&& rxIPF == 0 then
    mbufCsumDidIP ||| mbufCsumIPGood else 0
  if (status1 &&& rxTCPT != 0 && status1 &&& rxTCPF == 0) ||
      (status1 &&& rxUDPT != 0 && status1 &&& rxUDPF == 0) then
    (ip ||| (mbufCsumDidData ||| mbufCsumPseudoHdr), 0xffff)
  else (ip, 0)

def getChecksumResult (m : ℕ) (status1 status2 : UInt32) (s : RxAssembly) : RxAssembly :=
  if (csumPerformed status1 status2).1 != 0 then
    mbufSetCsumPerformed m (csumPerformed status1 status2).1 (csumPerformed status1 status2).2 s
  else s

def osSwapInt16 (x : UInt16) : UInt16 := (x <<< 8) ||| (x >>> 8)

/-- The VLAN tag of the last descriptor goes on the first mbuf of the frame. -/
def noteVlanTag (status2 : UInt32) (s : RxAssembly) : RxAssembly :=
  if status2 &&& rxVlanTag != 0 then
    setVlanTag (s.rxPacket.headD 0) (osSwapInt16 (status2 &&& 0xffff).toUInt16) s
  else s

def enqueueInputPacket (s : RxAssembly) : RxAssembly :=
  { s with trace := s.trace ++ [.enqueue s.rxPacket (packetOf s.mbuf s.rxPacket)] }

/-- The frame is complete: its metadata, its length, and up the stack. -/
def passOn (newPkt : ℕ) (status1 status2 : UInt32) (s : RxAssembly) : RxAssembly :=
  let s := noteVlanTag status2 (getChecksumResult newPkt status1 status2 s)
  { enqueueInputPacket (mbufPktHdrSetLen (s.rxPacket.headD 0) s.rxPacketSize s) with
    rxPacket := []
    rxPacketSize := 0 }

/-- From the label `handle_pkt` on, for a packet that is kept. -/
def handlePkt (newPkt : ℕ) (pktSize : ℤ) (status1 status2 : UInt32) (s : RxAssembly) : RxAssembly :=
  if status1 &&& lastFrag != 0 then
    passOn newPkt status1 status2 (addLastFragment newPkt (pktSize - kIOEthernetCRCSize) s)
  else addFragment newPkt pktSize s

/-! ### The loop body -/

def noteRxError (status1 : UInt32) (s : RxAssembly) : RxAssembly :=
  { s with stats := { s.stats with
      frameTooLongs := s.stats.frameTooLongs + if status1 &&& (rxRWT ||| rxRUNT) != 0 then 1 else 0
      fcsErrors := s.stats.fcsErrors + if status1 &&& rxCRC != 0 then 1 else 0 } }

def noteResourceError (s : RxAssembly) : RxAssembly :=
  { s with stats := { s.stats with resourceErrors := s.stats.resourceErrors + 1 } }

/-- What the loop body leaves at `nextDesc`: whether `goodPkts` went up, and the new mbuf of the
receive buffer if it was replaced. -/
structure Handled where
  good : Bool
  newBuf : Option ℕ
  asm : RxAssembly

/-- A buffer without receive error that holds `len` bytes, in receive buffer `i`. -/
def rxReceive (maxCopySize i len : ℕ) (d : RxDesc) (a : Alloc) (s : RxAssembly) : Handled :=
  let r := replaceOrCopyPacket maxCopySize (s.bufMbuf i) len a s
  match r.newPkt with
  | none => ⟨false, none, discardPacketFragment (noteResourceError r.asm)⟩
  | some newPkt =>
      if r.replaced then
        -- mbuf_next(bufPkt) != NULL
        if a = .chained then
          ⟨false, none, mbufFree [r.bufPkt] (discardPacketFragment (noteResourceError r.asm))⟩
        else
          ⟨d.opts1 &&& lastFrag != 0, some r.bufPkt, handlePkt newPkt len d.opts1 d.opts2
            { r.asm with bufMbuf := Function.update r.asm.bufMbuf i r.bufPkt }⟩
      else ⟨d.opts1 &&& lastFrag != 0, none, handlePkt newPkt len d.opts1 d.opts2 r.asm⟩

def rxLen (lenMask : UInt32) (d : RxDesc) : ℕ := (d.opts1 &&& lenMask).toNat

/-- The loop body for descriptor `d` at ring index `i`, up to the label `nextDesc`. -/
def rxHandle (lenMask : UInt32) (maxCopySize i : ℕ) (d : RxDesc) (a : Alloc) (s : RxAssembly) :
    Handled :=
  if d.opts1 &&& rxRES != 0 then ⟨false, none, discardPacketFragment (noteRxError d.opts1 s)⟩
  else rxReceive maxCopySize i (rxLen lenMask d) d a s

/-! ### When a packet is taken -/

/-- The descriptor has no receive error, and there is an mbuf for it. -/
def rxTakes (lenMask : UInt32) (maxCopySize : ℕ) (d : RxDesc) (a : Alloc) : Bool :=
  d.opts1 &&& rxRES == 0 && a != .failed && !(decide (maxCopySize < rxLen lenMask d) && a == .chained)

/-- A packet is taken and completes a frame. -/
def rxDelivers (lenMask : UInt32) (maxCopySize : ℕ) (d : RxDesc) (a : Alloc) : Bool :=
  rxTakes lenMask maxCopySize d a && d.opts1 &&& lastFrag != 0

end Rtl812x.Kext
