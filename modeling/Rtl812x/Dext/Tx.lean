import Rtl812x.Dext.Fifo
import Rtl812x.Dext.Offload

/-!
# The transmit side of the dext

The transmit state of `RTL8127Driver_IVars` and `RTL8127Hw`, and the functions that change it:
`txDequeueAction` takes packets from the framework and places them on the ring, `txRingReclaim`
retires what the chip has closed (or, with `abort`, everything), `txEnqueueAction` hands completed
packets back.  `txRingReset` is what `rtl812xHwConfig` does to the transmit ring and `txLinkDown`
what the link-down branch of `updateLinkStatus` does.

A packet is known by its number; what a call reads of it comes with the call (`TxPacket`).  The
state also records, newest first, what the calls did (`TxSide.trace`): this is a record only, no
function reads it.  Statistics that are only logged are left out.
-/

namespace Rtl812x.Dext

open WrapCounter

def kNumTxQueues : ℕ := 4
def kTxPoolPackets : ℕ := kNumTxDesc
def kTxInflightBytesLimit : ℤ := 4 * 1024 * 1024

/-- The completion status the driver sets on a packet. -/
inductive IOReturn where
  | success | badArgument | aborted
deriving DecidableEq, Repr

/-- A queue object of the framework, as `txQueueIndex` looks it up. -/
inductive PacketQueue where
  | txSub (i : Fin 4)
  | txComp (i : Fin 4)
  | other
deriving DecidableEq, Repr

def txQueueIndex : PacketQueue → ℕ
  | .txSub i => i
  | .txComp i => i
  | .other => 0

theorem txQueueIndex_lt (q : PacketQueue) : txQueueIndex q < kNumTxQueues := by
  cases q with
  | txSub i => exact i.isLt
  | txComp i => exact i.isLt
  | other => decide

/-- What a call did to the transmit side. -/
inductive TxEvent where
  /-- a packet of a queue was written to a descriptor, which now belongs to the chip -/
  | place (index pkt queue : ℕ)
  /-- a descriptor was reclaimed -/
  | retire (index : ℕ)
  /-- a malformed packet of a queue was taken over without touching the ring -/
  | reject (pkt queue : ℕ)
  /-- a packet was appended to a completion FIFO -/
  | push (queue pkt : ℕ)
  /-- a packet was given back to its pool because the FIFO was full -/
  | dealloc (pkt : ℕ)
  /-- a packet was returned to the framework -/
  | pop (queue pkt : ℕ)
  /-- the ring restarted at descriptor 0 -/
  | ringReset
  | doorbell (reg : ℕ)
  | requestEnqueue (queue : ℕ)
  | requestDequeue (queue : ℕ)
deriving DecidableEq, Repr

/-- The ring counters, which are fields of the hardware object. -/
structure TxIndex where
  txTailPtr0 : ℕ
  txClosePtr0 : ℕ
  txNextDescIndex : ℕ
  txDirtyDescIndex : ℕ
  txNumFreeDesc : ℤ
deriving DecidableEq, Repr

/-- The transmit state. -/
structure TxSide where
  hw : TxIndex
  txRing : ℕ → TxDesc
  txPkt : ℕ → Option ℕ
  txPktQueue : ℕ → ℕ
  txPktLen : ℕ → ℕ
  txInflightBytes : ℤ
  txDoneFifo : ℕ → PacketFifo
  /-- The buffer contents of each packet, as the chip reads them. -/
  buffers : ℕ → ℕ → UInt8
  completionStatus : ℕ → Option IOReturn
  mtu : ℕ
  tsoEnabled : Bool
  trace : List TxEvent

/-- The zero-filled state with the defaults of `init`. -/
def TxSide.init : TxSide where
  hw := ⟨0, 0, 0, 0, 0⟩
  txRing := fun _ => ⟨0, 0, 0⟩
  txPkt := fun _ => none
  txPktQueue := fun _ => 0
  txPktLen := fun _ => 0
  txInflightBytes := 0
  txDoneFifo := fun _ => PacketFifo.empty
  buffers := fun _ _ => 0
  completionStatus := fun _ => none
  mtu := 1500
  tsoEnabled := true
  trace := []

/-- `OSAddAtomic` on a 32-bit signed integer. -/
def osAddAtomic (amount value : ℤ) : ℤ := (value + amount).bmod (2 ^ 32)

/-! ### Completing a packet -/

/-- Set a packet's status and queue it for return; a full FIFO gives it back to the pool. -/
def txComplete (q p : ℕ) (status : IOReturn) (s : TxSide) : TxSide :=
  { s with
    txDoneFifo := Function.update s.txDoneFifo q (fifoPush (s.txDoneFifo q) p).2
    completionStatus := Function.update s.completionStatus p (some status)
    trace := (if (fifoPush (s.txDoneFifo q) p).1 then .push q p else .dealloc p) :: s.trace }

/-! ### Submission -/

/-- The ring counters after one more packet. -/
def TxIndex.place (h : TxIndex) : TxIndex :=
  { h with
    txNextDescIndex := (h.txNextDescIndex + 1) &&& kTxDescMask
    txTailPtr0 := (h.txTailPtr0 + 1) % 2 ^ 32
    txNumFreeDesc := osAddAtomic (-1) h.txNumFreeDesc }

/-- A malformed packet goes straight to the completion FIFO. -/
def txReject (q : ℕ) (pkt : TxPacket) (s : TxSide) : TxSide :=
  txComplete q pkt.id .badArgument { s with trace := .reject pkt.id q :: s.trace }

/-- Write a packet's descriptor and advance the ring. -/
def txPlace (q : ℕ) (pkt : TxPacket) (iova : ℕ) (s : TxSide) : TxSide :=
  let index := s.hw.txNextDescIndex
  let frame : Frame := fun i => pkt.buffer (pkt.dataOff + i)
  let (cmd, opts2, frame) := txOffload s.tsoEnabled s.mtu pkt frame
  let opts1 := (pkt.dataLength.toUInt32 &&& kTxDescLenMask) ||| cmd ||| firstFrag ||| lastFrag
  let opts1 := if index = kTxLastDesc then opts1 ||| ringEnd else opts1
  { s with
    hw := s.hw.place
    txRing := Function.update s.txRing index ⟨opts1 ||| descOwn, opts2, iova⟩
    txPkt := Function.update s.txPkt index (some pkt.id)
    txPktQueue := Function.update s.txPktQueue index q
    txPktLen := Function.update s.txPktLen index pkt.dataLength
    txInflightBytes := s.txInflightBytes + pkt.dataLength
    buffers := Function.update s.buffers pkt.id (putFrame pkt.buffer pkt.dataOff frame)
    trace := .place index pkt.id q :: s.trace }

/-- The frame's device address, unless the packet is malformed. -/
def txView (pkt : TxPacket) : Option ℕ :=
  if pkt.dataLength < kMacHdrLen then none
  else (rtl8127TxBufferView pkt.dataVirtualAddress pkt.dataIOVirtualAddress pkt.dataOff
    pkt.dataLength kTxBufferSize).map Prod.snd

/-- What the submission loop does with one packet. -/
def txAccept (q : ℕ) (pkt : TxPacket) (s : TxSide) : TxSide :=
  match txView pkt with
  | none => txReject q pkt s
  | some iova => txPlace q pkt iova s

/-- The ring or the byte budget has no room for another packet. -/
def TxSide.noSpace (s : TxSide) : Prop :=
  s.hw.txNumFreeDesc ≤ 2 ∨ s.txInflightBytes ≥ kTxInflightBytesLimit

instance (s : TxSide) : Decidable s.noSpace :=
  inferInstanceAs (Decidable (_ ∨ _))

/-- The submission loop: how many packets it accepted, and the state. -/
def txDequeueLoop (q : ℕ) : List TxPacket → ℕ → TxSide → ℕ × TxSide
  | [], accepted, s => (accepted, s)
  | pkt :: pkts, accepted, s =>
    if s.noSpace then (accepted, s)
    else txDequeueLoop q pkts (accepted + 1) (txAccept q pkt s)

/-- Tell the chip how far the ring is filled. -/
def txDoorbell (m : Mcfg) (s : TxSide) : TxSide :=
  { s with trace := .doorbell (rtl812xDoorbell (hwSuppTxNoCloseVer m) s.hw.txTailPtr0) :: s.trace }

/-- TX submission: the framework hands over packets to transmit. -/
def txDequeueAction (m : Mcfg) (linkUp : Bool) (queue : PacketQueue) (packets : List TxPacket)
    (s : TxSide) : ℕ × TxSide :=
  if !linkUp then (0, s)
  else
    let r := txDequeueLoop (txQueueIndex queue) packets 0 s
    if r.1 ≠ 0 then (r.1, txDoorbell m r.2) else r

/-! ### Completion -/

/-- TX completion: the framework collects up to `arrayCapacity` packets of one FIFO. -/
def txEnqueueLoop (q : ℕ) : ℕ → TxSide → List ℕ × TxSide
  | 0, s => ([], s)
  | capacity + 1, s =>
    let s' := { s with txDoneFifo := Function.update s.txDoneFifo q (fifoPop (s.txDoneFifo q)).2 }
    match (fifoPop (s.txDoneFifo q)).1 with
    | none => ([], s')
    | some p =>
      let r := txEnqueueLoop q capacity { s' with trace := .pop q p :: s.trace }
      (p :: r.1, r.2)

def txEnqueueAction (queue : PacketQueue) (arrayCapacity : ℕ) (s : TxSide) : List ℕ × TxSide :=
  txEnqueueLoop (txQueueIndex queue) arrayCapacity s

/-! ### Reclaim -/

/-- Take a slot's packet off the ring and complete it to the queue it came from. -/
def txRelease (abort : Bool) (index : ℕ) (s : TxSide) : TxSide :=
  match s.txPkt index with
  | none => s
  | some p =>
    txComplete (if s.txPktQueue index < kNumTxQueues then s.txPktQueue index else 0) p
      (if abort then .aborted else .success)
      { s with
        txPkt := Function.update s.txPkt index none
        txInflightBytes := s.txInflightBytes - s.txPktLen index }

/-- Retire the oldest descriptor of the ring. -/
def txRetire (abort : Bool) (s : TxSide) : TxSide :=
  let index := s.hw.txDirtyDescIndex
  let s' := txRelease abort index s
  { s' with
    hw := { s'.hw with txDirtyDescIndex := (index + 1) &&& kTxDescMask }
    trace := .retire index :: s'.trace }

/-- The queue whose FIFO the next retired packet goes to, if a packet is there. -/
def txRetireQueue (s : TxSide) : Option ℕ :=
  (s.txPkt s.hw.txDirtyDescIndex).map fun _ =>
    let q := s.txPktQueue s.hw.txDirtyDescIndex
    if q < kNumTxQueues then q else 0

/-- Note that this queue gets a completion. -/
def txNoteWork (didWork : ℕ → Bool) (s : TxSide) : ℕ → Bool :=
  match txRetireQueue s with
  | none => didWork
  | some q => Function.update didWork q true

/-- Retire `numDone` descriptors; also which queues got completions. -/
def txRetireLoop (abort : Bool) : ℕ → (ℕ → Bool) → TxSide → (ℕ → Bool) × TxSide
  | 0, didWork, s => (didWork, s)
  | numDone + 1, didWork, s =>
    txRetireLoop abort numDone (txNoteWork didWork s) (txRetire abort s)

/-- The requests `txRingReclaim` makes of the framework's queues, newest first. -/
def txRequests (didWork : ℕ → Bool) : List TxEvent :=
  if (List.range kNumTxQueues).any didWork then
    ((List.range kNumTxQueues).flatMap fun i =>
      (if didWork i then [TxEvent.requestEnqueue i] else []) ++ [.requestDequeue i]).reverse
  else []

/-- Publish the freed descriptors and notify the queues. -/
def txPublish (reclaimed : ℕ) (didWork : ℕ → Bool) (s : TxSide) : TxSide :=
  { s with
    hw := if reclaimed = 0 then s.hw
      else { s.hw with txNumFreeDesc := osAddAtomic (Int.bmod reclaimed (2 ^ 32)) s.hw.txNumFreeDesc }
    trace := txRequests didWork ++ s.trace }

/-- Retire what the chip has closed, whose close-pointer register reads `reg`; with `abort`,
everything up to the tail. -/
def txRingReclaim (m : Mcfg) (abort : Bool) (reg : ℕ) (s : TxSide) : TxSide :=
  let ver := hwSuppTxNoCloseVer m
  let nextClose := if abort then s.hw.txTailPtr0 else rtl812xGetHwCloPtr ver reg
  let numDone := sub32 nextClose s.hw.txClosePtr0 &&& maxTxDescPtrMask ver
  let r := txRetireLoop abort numDone (fun _ => false)
    { s with hw := { s.hw with txClosePtr0 := nextClose } }
  txPublish numDone r.1 r.2

/-! ### Ring restarts -/

/-- The ring counters at descriptor 0 of an empty ring. -/
def TxIndex.restart : TxIndex := ⟨0, 0, 0, 0, kNumTxDesc⟩

/-- What `rtl812xHwConfig` does to the transmit ring. -/
def txRingReset (s : TxSide) : TxSide :=
  { s with hw := TxIndex.restart, trace := .ringReset :: s.trace }

/-- What the link-down branch does to it: everything in flight is returned first. -/
def txLinkDown (m : Mcfg) (s : TxSide) : TxSide :=
  { txRingReset (txRingReclaim m true 0 s) with txInflightBytes := 0 }

/-! ### Free space -/

/-- The packets and bytes `txQueryFreeSpace` reports as available. -/
def txQueryFreeSpace (s : TxSide) : ℕ × ℕ :=
  let freeDesc := if s.hw.txNumFreeDesc < 0 then 0 else s.hw.txNumFreeDesc
  let availBytes := kTxInflightBytesLimit - s.txInflightBytes
  if availBytes ≤ 0 ∨ freeDesc = 0 then (0, 0)
  else (freeDesc.toNat, (if availBytes > 2 ^ 32 - 1 then 2 ^ 32 - 1 else availBytes).toNat)

end Rtl812x.Dext
