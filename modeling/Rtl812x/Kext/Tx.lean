import Mathlib.Data.List.ReduceOption
import Rtl812x.Hw.Regs
import Rtl812x.Lib.Circular

/-!
# The transmit side of the kext, with AppleVTD

`outputStart` takes packets from the interface, cuts each into segments that lie within a page, has
`txMapPacket` map them for the chip (`txMapPacket` takes one of 512 memory descriptors for each
packet) and writes a descriptor for each segment.  `txInterrupt` retires what the chip has closed,
and calls `txUnmapPacket` for each packet it frees.  `clearRxTxRings` frees everything, and
`rtl812xHwConfig`, which a link-up event comes to, restarts the ring counters.

A packet is a number; what a call reads of it comes with the call (`TxPacket`).  A memory descriptor
remembers for which packet it is prepared (`TxMem.wired`); that and `trace` are a record only, no
function reads them.  The words that the offload branch needs of the packet's headers (`tcpOff`,
`tsoMss`, what `prepareTSO4` and `prepareTSO6` return) come with the packet; counters that are only
logged are left out, and so is the receive half of `clearRxTxRings`.
-/

namespace Rtl812x.Kext

open Circular WrapCounter

def kMaxSegs : ℕ := 32
def kNumTxMemDesc : ℕ := kNumTxDesc / 2
def kTxMemDescMask : ℕ := kNumTxMemDesc - 1

theorem and_kTxMemDescMask (n : ℕ) : n &&& kTxMemDescMask = n % kNumTxMemDesc :=
  Nat.and_two_pow_sub_one_eq_mod n 9

/-- A packet as the interface hands it over: its mbufs (address and length of each), and its
offload requests. -/
structure TxPacket where
  id : ℕ
  chain : List (ℕ × ℕ)
  pktHdrLen : ℕ
  /-- `mbuf_get_tso_requested` fails -/
  tsoError : Bool
  tsoIPV4 : Bool
  tsoIPV6 : Bool
  tcpOff : UInt32
  tsoMss : UInt32
  csumTCP : Bool
  csumTCPIPv6 : Bool
  csumUDP : Bool
  csumUDPIPv6 : Bool
  csumIP : Bool
  vlanTag : Option UInt16
deriving DecidableEq, Repr

/-- An address and a length. -/
structure Segment where
  location : ℕ
  length : ℕ
deriving DecidableEq, Repr

/-- One slot of the transmit map: the memory descriptor (`txMemIO`), the packet it is prepared for,
whether its DMA command (`txDmaCmd`) is bound to it, and its tag. -/
structure TxMem where
  md : Bool
  wired : Option ℕ
  bound : Bool
  active : Bool
deriving DecidableEq, Repr

/-- The ring counters. -/
structure TxIndex where
  txTailPtr0 : ℕ
  txClosePtr0 : ℕ
  txNextDescIndex : ℕ
  txDirtyDescIndex : ℕ
  txNumFreeDesc : ℤ
deriving DecidableEq, Repr

inductive TxEvent where
  /-- `txUnmapPacket` took a slot down, prepared for some packet, before `freePacket` of another -/
  | unmap (slot : ℕ) (wired : Option ℕ) (pkt : ℕ)
  | free (pkt : ℕ)
  | doorbell (reg : ℕ)
deriving DecidableEq, Repr

structure TxSide where
  hw : TxIndex
  txDesc : ℕ → TxDesc
  txMbuf : ℕ → Option ℕ
  txNextMem2Use : ℕ
  txNextMem2Free : ℕ
  txNumFreeMem : ℤ
  txMem : ℕ → TxMem
  txMemRange : ℕ → Segment
  txDescDoneCount : ℕ
  enabled : Bool
  linkUp : Bool
  trace : List TxEvent

structure TxConfig where
  mcfg : Mcfg
  pageSize : ℕ
  mtu : ℕ

/-! ### Cutting a packet at page boundaries -/

def truncPage (pageSize d : ℕ) : ℕ := d - d % pageSize

def nextPage (pageSize d : ℕ) : ℕ := truncPage pageSize (d + pageSize)

/-- The inner loop of `txMapPacket`, for one mbuf of `len` bytes at `d`; it takes at most `len`
rounds. -/
def cutMbuf (pageSize : ℕ) : ℕ → ℕ → ℕ → List Segment
  | 0, _, _ => []
  | fuel + 1, d, len =>
      if len = 0 then []
      else
        let l := min (nextPage pageSize d) (d + min len pageSize) - d
        ⟨d, l⟩ :: cutMbuf pageSize fuel (d + l) (len - l)

/-- The segments of a packet; a single mbuf within a page is taken as it is. -/
def virtualSegments (pageSize : ℕ) : List (ℕ × ℕ) → List Segment
  | [(d, len)] =>
      if truncPage pageSize d = truncPage pageSize (d + len - 1) then [⟨d, len⟩]
      else cutMbuf pageSize len d len
  | chain => chain.flatMap fun m => cutMbuf pageSize m.2 m.1 m.2

/-! ### Mapping a packet -/

/-- How the calls that map a packet turn out: no memory descriptor could be made or set up,
`prepare` or `setMemoryDescriptor` failed, or `gen64IOVMSegments` gives the device address of each
page (`none` where it fails). -/
inductive TxMapResult where
  | initFails
  | prepareFails
  | setFails
  | segs (iova : ℕ → Option ℕ)

/-- The error path: the slot is given back. -/
def errorMap (saveMem : ℕ) (s : TxSide) : TxSide :=
  { s with txNextMem2Use := saveMem, txNumFreeMem := s.txNumFreeMem + 1 }

def setMem (slot : ℕ) (f : TxMem → TxMem) (s : TxSide) : TxSide :=
  { s with txMem := Function.update s.txMem slot (f (s.txMem slot)) }

/-- The calls on the memory descriptor and the DMA command of slot `saveMem`, for a packet of `n`
segments: whether they succeed, and the state. -/
def txMapSlot (pkt n saveMem : ℕ) (r : TxMapResult) (s : TxSide) : Bool × TxSide :=
  match r with
  | .initFails => (false, errorMap saveMem s)
  | .prepareFails =>
      (false, errorMap saveMem (setMem saveMem (fun t => { t with md := true, wired := none }) s))
  | .setFails =>
      (false, errorMap saveMem (setMem saveMem (fun t => { t with md := true, wired := none }) s))
  | .segs iova =>
      if (List.range n).all fun i => (iova i).isSome then
        (true, setMem saveMem (fun _ => ⟨true, some pkt, true, true⟩) s)
      else
        -- prepared, bound and tagged, then taken down again; the tag stays
        (false, errorMap saveMem (setMem saveMem (fun _ => ⟨true, none, false, true⟩) s))

/-- The device addresses of the segments. -/
def deviceSegments (pageSize : ℕ) (segs : List Segment) : TxMapResult → ℕ → Segment
  | .segs iova, i =>
      let seg := segs.getD i ⟨0, 0⟩
      ⟨(iova i).getD 0 + seg.location % pageSize, seg.length⟩
  | _, _ => ⟨0, 0⟩

/-- A slot of the map is taken, and the pages of the segments go to the ranges from
`txNextDescIndex` on. -/
def takeMem (pageSize : ℕ) (segs : List Segment) (s : TxSide) : TxSide :=
  { s with
    txMemRange := fun i =>
      if s.hw.txNextDescIndex ≤ i ∧ i < s.hw.txNextDescIndex + segs.length then
        ⟨truncPage pageSize (segs.getD (i - s.hw.txNextDescIndex) ⟨0, 0⟩).location, pageSize⟩
      else s.txMemRange i
    txNumFreeMem := s.txNumFreeMem - 1
    txNextMem2Use := (s.txNextMem2Use + 1) &&& kTxMemDescMask }

/-- Map a packet: the number of segments, the segments, and the state.  `vector` is what the
caller's array holds before the call. -/
def txMapPacket (cfg : TxConfig) (p : TxPacket) (maxSegs : ℕ) (r : TxMapResult)
    (vector : ℕ → Segment) (s : TxSide) : ℕ × (ℕ → Segment) × TxSide :=
  let segs := virtualSegments cfg.pageSize p.chain
  if maxSegs < segs.length then (0, vector, s)
  else if 1 < s.txNumFreeMem then
    let m := txMapSlot p.id segs.length s.txNextMem2Use r (takeMem cfg.pageSize segs s)
    if m.1 then (segs.length, deviceSegments cfg.pageSize segs r, m.2) else (0, vector, m.2)
  else (segs.length, vector, s)

/-- Take the mapping of the oldest slot down, before packet `pkt` is freed. -/
def txUnmapPacket (pkt : ℕ) (s : TxSide) : TxSide :=
  let slot := s.txNextMem2Free
  { setMem slot (fun t => { t with wired := none, bound := false, active := false }) s with
    txNextMem2Free := (slot + 1) &&& kTxMemDescMask
    txNumFreeMem := s.txNumFreeMem + 1
    trace := .unmap slot (s.txMem slot).wired pkt :: s.trace }

/-! ### Submission -/

/-- The TSO command bits of the first word, and the second word without the VLAN tag. -/
def offloadWords (mtu : ℕ) (p : TxPacket) : UInt32 × UInt32 :=
  let v6 := ((kMacHdrLen + kIPv6HdrLen) % (tcphoMax + 1)).toUInt32 <<< tcphoShift
  if p.tsoIPV4 then
    if mtu < sub32 p.pktHdrLen kMacHdrLen then
      (giantSendv4 ||| (p.tcpOff <<< gtTcphoShift), (p.tsoMss &&& mssMask) <<< mssShift8125)
    else (0, txIPCS ||| txTCPCS)
  else if p.tsoIPV6 then
    if mtu < sub32 p.pktHdrLen kMacHdrLen then
      (giantSendv6 ||| (p.tcpOff <<< gtTcphoShift), (p.tsoMss &&& mssMask) <<< mssShift8125)
    else (0, txTCPCS ||| txIPV6F ||| v6)
  else if p.csumTCP then (0, txIPCS ||| txTCPCS)
  else if p.csumTCPIPv6 then (0, txTCPCS ||| txIPV6F ||| v6)
  else if p.csumUDP then (0, txIPCS ||| txUDPCS)
  else if p.csumUDPIPv6 then (0, txUDPCS ||| txIPV6F ||| v6)
  else if p.csumIP then (0, txIPCS)
  else (0, 0)

def vlanWord : Option UInt16 → UInt32
  | some tag => ((tag <<< 8) ||| (tag >>> 8)).toUInt32 ||| txVlanTag
  | none => 0

/-- Write the descriptors of a packet from `index` on; the last one carries the mbuf. -/
def fillDescs (cmd opts2 : UInt32) (pkt : ℕ) : Bool → List Segment → ℕ → TxSide → TxSide
  | _, [], _, s => s
  | first, seg :: rest, index, s =>
      let opts1 := seg.length.toUInt32 ||| cmd ||| (if first then firstFrag else descOwn) |||
        (if rest = [] then lastFrag else 0) ||| (if index = kTxLastDesc then ringEnd else 0)
      fillDescs cmd opts2 pkt false rest ((index + 1) &&& kTxDescMask) { s with
        txDesc := Function.update s.txDesc index ⟨opts1, opts2, seg.location⟩
        txMbuf := Function.update s.txMbuf index (if rest = [] then some pkt else none) }

/-- The counters after `n` more descriptors. -/
def TxIndex.place (n : ℕ) (h : TxIndex) : TxIndex :=
  { h with
    txNumFreeDesc := h.txNumFreeDesc - n
    txNextDescIndex := (h.txNextDescIndex + n) &&& kTxDescMask
    txTailPtr0 := (h.txTailPtr0 + n) % 2 ^ 32 }

/-- Put a mapped packet on the ring; the chip gets its first descriptor last. -/
def placePacket (cmd opts2 : UInt32) (pkt : ℕ) (segs : List Segment) (s : TxSide) : TxSide :=
  let index := s.hw.txNextDescIndex
  let s' := fillDescs cmd opts2 pkt true segs index { s with hw := s.hw.place segs.length }
  { s' with
    txDesc := Function.update s'.txDesc index
      { s'.txDesc index with opts1 := (s'.txDesc index).opts1 ||| descOwn } }

def freePacket (pkt : ℕ) (s : TxSide) : TxSide := { s with trace := .free pkt :: s.trace }

/-- The loop of `outputStart`, for a packet it has taken from the interface. -/
def outputPacket (cfg : TxConfig) (p : TxPacket) (r : TxMapResult) (vector : ℕ → Segment)
    (s : TxSide) : TxSide :=
  if p.tsoError then freePacket p.id s
  else
    let m := txMapPacket cfg p kMaxSegs r vector s
    if m.1 = 0 then freePacket p.id m.2.2
    else placePacket (offloadWords cfg.mtu p).1 ((offloadWords cfg.mtu p).2 ||| vlanWord p.vlanTag)
      p.id ((List.range m.1).map m.2.1) m.2.2

/-- A packet with what its mapping calls come to, and what the segment array holds by then. -/
structure TxOffer where
  pkt : TxPacket
  result : TxMapResult
  vector : ℕ → Segment

/-- One round of the loop: with room for a packet of any size, the next one is taken. -/
def outputRound (cfg : TxConfig) (o : TxOffer) (s : TxSide) : TxSide :=
  if (kMaxSegs : ℤ) + 3 < s.hw.txNumFreeDesc then outputPacket cfg o.pkt o.result o.vector s else s

def txDoorbell (cfg : TxConfig) (s : TxSide) : TxSide :=
  { s with
    trace := .doorbell (rtl812xDoorbell (hwSuppTxNoCloseVer cfg.mcfg) s.hw.txTailPtr0) :: s.trace }

/-- `outputStart`, with the packets waiting at the interface. -/
def outputStart (cfg : TxConfig) (queue : List TxOffer) (s : TxSide) : TxSide :=
  if s.enabled && s.linkUp then
    txDoorbell cfg (queue.foldl (fun s o => outputRound cfg o s) s)
  else s

/-! ### Completion -/

/-- One round of the loop of `txInterrupt`. -/
def retireDesc (s : TxSide) : TxSide :=
  let index := s.hw.txDirtyDescIndex
  let s' := match s.txMbuf index with
    | some m => freePacket m (txUnmapPacket m { s with txMbuf := Function.update s.txMbuf index none })
    | none => s
  { s' with
    txDescDoneCount := s'.txDescDoneCount + 1
    hw := { s'.hw with
      txNumFreeDesc := s'.hw.txNumFreeDesc + 1
      txDirtyDescIndex := (index + 1) &&& kTxDescMask } }

/-- `txInterrupt`, when the close-pointer register reads `reg`. -/
def txInterrupt (cfg : TxConfig) (reg : ℕ) (s : TxSide) : TxSide :=
  let ver := hwSuppTxNoCloseVer cfg.mcfg
  let nextClosePtr := rtl812xGetHwCloPtr ver reg
  let numDone := sub32 nextClosePtr s.hw.txClosePtr0 &&& maxTxDescPtrMask ver
  retireDesc^[numDone] { s with hw := { s.hw with txClosePtr0 := nextClosePtr } }

/-! ### Restarts -/

def TxIndex.restart : TxIndex := ⟨0, 0, 0, 0, kNumTxDesc⟩

/-- What `clearRxTxRings` does to a slot of the map: an active memory descriptor is completed. -/
def clearMem (t : TxMem) : TxMem :=
  if t.md && t.active then { t with wired := none, active := false } else t

/-- The transmit half of `clearRxTxRings`. -/
def clearRxTxRings (s : TxSide) : TxSide :=
  { s with
    txMem := fun i => if i < kNumTxMemDesc then clearMem (s.txMem i) else s.txMem i
    txNextMem2Use := 0
    txNextMem2Free := 0
    txNumFreeMem := kNumTxMemDesc
    txDesc := fun i => if i < kNumTxDesc then
      { s.txDesc i with opts1 := if i = kTxLastDesc then ringEnd else 0 } else s.txDesc i
    txMbuf := fun i => if i < kNumTxDesc then none else s.txMbuf i
    hw := TxIndex.restart
    trace := ((window kNumTxDesc 0 kNumTxDesc s.txMbuf).reduceOption.map .free).reverse ++ s.trace }

/-- What `rtl812xHwConfig` does to the transmit side. -/
def rtl812xHwConfig (s : TxSide) : TxSide := { s with hw := TxIndex.restart }

def setLinkDown (s : TxSide) : TxSide := clearRxTxRings { s with linkUp := false }

def setLinkUp (s : TxSide) : TxSide := { s with linkUp := true }

/-- `rtl812xCheckLinkStatus` for a reading of PHYstatus; link up runs `rtl812xHwConfig`. -/
def rtl812xCheckLinkStatus (status : UInt32) (s : TxSide) : TxSide :=
  if phyLinkUp status then setLinkUp (rtl812xHwConfig s)
  else clearRxTxRings (setLinkDown s)

/-- After `setupTxMap`, `enable` and the first `rtl812xHwConfig`: no memory descriptors yet. -/
def TxSide.init : TxSide where
  hw := TxIndex.restart
  txDesc := fun _ => ⟨0, 0, 0⟩
  txMbuf := fun _ => none
  txNextMem2Use := 0
  txNextMem2Free := 0
  txNumFreeMem := kNumTxMemDesc
  txMem := fun _ => ⟨false, none, false, false⟩
  txMemRange := fun _ => ⟨0, 0⟩
  txDescDoneCount := 0
  enabled := true
  linkUp := false
  trace := []

end Rtl812x.Kext
