import Mathlib.Data.List.FinRange
import Rtl812x.Kext.Rx
import Rtl812x.Kext.TxMapping
import Rtl812x.Lib.Handles

/-!
# Starting the kext

`start` acquires the resources of the driver one after the other; where a call fails it jumps to a label
from which the resources acquired so far are released, in reverse order.  `setupTxResources`,
`setupRxResources` and `setupStatResources` do the same inside.  `free` releases what the member
variables still point to.

Which calls succeed is a parameter (`StartCalls`).  For each resource the object keeps its pointer and
how often it was acquired and released (`Handles.Handle`).  Only the sequence of calls is modelled: what
they compute (the chip's type, the limit of the medium table, device addresses) is elsewhere or a
parameter.  `start` returns `none` if a null pointer is called.

* `Resource`, `StartCalls`, `DriverObject`;
* `setupMediumDict`, `setupRing` — the part the three setup functions of rings share —
  `setupTxResources`, `setupRxResources`, `setupStatResources`, `initEventSources`, `start`, `free`;
* `StartCalls.allOk`, `StartCalls.attachReached` — which steps succeed.
-/

namespace Rtl812x.Kext.Start

open Handles

/-! ### Resources -/

inductive Resource where
  | workLoop
  | pciDevice
  | pciOpen
  | mapper
  | baseMap
  | mediumDict
  | commandGate
  | txBufArrayMem
  | txBufDesc
  | txDescDmaCmd
  | txMapMem
  | txDmaCmd (i : Fin kNumTxMemDesc)
  | txMbufCursor
  | rxBufArrayMem
  | rxBufDesc
  | rxDescDmaCmd
  | rxPool
  | rxMbuf (i : Fin kNumRxDesc)
  | rxMapMem
  | rxMemIo (i : Fin kNumRxMemDesc)
  | rxDmaCmd (i : Fin kNumRxMemDesc)
  | statCall
  | statBufDesc
  | statDescDmaCmd
  | txQueue
  | interruptSource
  | timerSource
deriving DecidableEq, Repr

/-- The calls by which a ring gets its memory: the first of its resources, the descriptor memory, its
`prepare`, the DMA command, `setMemoryDescriptor` and `gen64IOVMSegments`. -/
structure RingCalls where
  first : Bool
  bufDesc : Bool
  prepare : Bool
  dmaCmd : Bool
  setDesc : Bool
  segments : Bool
deriving DecidableEq, Repr

/-- Which calls succeed.  `superStart` is `super::start` after it has called `createWorkLoop`; `limit` is
the number of media of the chip; `mapper` says whether the device has a mapper, `appleVTD` whether
`getParams` finds one in use. -/
structure StartCalls where
  createWorkLoop : Bool
  superStart : Bool
  provider : Bool
  openDevice : Bool
  mapper : Bool
  appleVTD : Bool
  arm64 : Bool
  baseMap : Bool
  chip : Bool
  limit : ℕ
  dict : Bool
  medium : ℕ → Bool
  addMedium : ℕ → Bool
  publish : Bool
  gate : Bool
  tx : RingCalls
  txMapMem : Bool
  txDmaCmd : Fin kNumTxMemDesc → Bool
  txMbufCursor : Bool
  rx : RingCalls
  rxPool : Bool
  rxMbuf : Fin kNumRxDesc → Bool
  rxMapMem : Bool
  rxMemIo : Fin kNumRxMemDesc → Bool
  rxPrepare : Fin kNumRxMemDesc → Bool
  rxDmaCmd : Fin kNumRxMemDesc → Bool
  rxSetDesc : Fin kNumRxMemDesc → Bool
  rxSegment : Fin kNumRxMemDesc → ℕ → Bool
  stat : RingCalls
  txQueue : Bool
  interrupt : Bool
  timer : Bool
  attach : Bool

structure DriverObject where
  handle : Resource → Handle
  useAppleVTD : Bool
  attached : Bool

/-- After `init`: no pointer is set. -/
def DriverObject.init : DriverObject := ⟨fun _ => .null, false, false⟩

namespace DriverObject

def take (r : Resource) (ok : Bool) (s : DriverObject) : DriverObject :=
  { s with handle := Handles.take r ok s.handle }

/-- A call whose result goes into a member variable. -/
def call (r : Resource) (ok : Bool) (s : DriverObject) : Bool × DriverObject := (ok, s.take r ok)

/-- `RELEASE(x)`. -/
def drop (r : Resource) (s : DriverObject) : DriverObject := { s with handle := Handles.drop r s.handle }

def dropAll (rs : List Resource) (s : DriverObject) : DriverObject :=
  { s with handle := Handles.dropAll rs s.handle }

/-- A release that leaves the pointer as it is. -/
def dropKept (r : Resource) (s : DriverObject) : DriverObject :=
  { s with handle := Handles.dropKept r s.handle }

def takeAll (calls : List (Option Resource × Bool)) (s : DriverObject) : Bool × DriverObject :=
  ((Handles.takeAll calls s.handle).1, { s with handle := (Handles.takeAll calls s.handle).2 })

@[simp] theorem take_handle (r : Resource) (ok : Bool) (s : DriverObject) :
    (s.take r ok).handle = Handles.take r ok s.handle := rfl

@[simp] theorem dropKept_handle (r : Resource) (s : DriverObject) :
    (s.dropKept r).handle = Handles.dropKept r s.handle := rfl

@[simp] theorem takeAll_handle (calls : List (Option Resource × Bool)) (s : DriverObject) :
    (s.takeAll calls).2.handle = (Handles.takeAll calls s.handle).2 := rfl

@[simp] theorem call_useAppleVTD (r : Resource) (ok : Bool) (s : DriverObject) :
    (s.call r ok).2.useAppleVTD = s.useAppleVTD := rfl

@[simp] theorem takeAll_useAppleVTD (calls : List (Option Resource × Bool)) (s : DriverObject) :
    (s.takeAll calls).2.useAppleVTD = s.useAppleVTD := rfl

end DriverObject

/-- A label from which a setup function returns false. -/
def failing (f : DriverObject → DriverObject) (s : DriverObject) : Bool × DriverObject := (false, f s)

variable (c : StartCalls) (s : DriverObject)

/-! ### The medium dictionary -/

/-- The loop over the media: whether it runs to its end, and `result`.  If a medium cannot be created,
`result` is what it was. -/
def addMedia : List ℕ → Bool → Bool × Bool
  | [], result => (true, result)
  | i :: is, result =>
      if !c.medium i then (false, result)
      else if !c.addMedium i then (false, false)
      else addMedia is true

/-- The label `error_med`: the dictionary is released, the pointer stays. -/
def errorMed (result : Bool) (s : DriverObject) : Option (Bool × DriverObject) :=
  if (s.handle .mediumDict).ptr then some (result, s.dropKept .mediumDict) else none

/-- Without a dictionary the loop is left out and `publishMediumDictionary` fails. -/
def setupMediumDict : Option (Bool × DriverObject) :=
  let media := if c.dict then addMedia c (List.range c.limit) false else (true, false)
  orGoto (media.1, s.take .mediumDict c.dict) (errorMed media.2) fun s =>
  orGoto (c.dict && c.publish, s) (errorMed false) fun s => some (true, s)

/-! ### Rings -/

/-- The resources of a ring. -/
structure RingResources where
  first : Resource
  bufDesc : Resource
  dmaCmd : Resource

def txRing : RingResources := ⟨.txBufArrayMem, .txBufDesc, .txDescDmaCmd⟩
def rxRing : RingResources := ⟨.rxBufArrayMem, .rxBufDesc, .rxDescDmaCmd⟩
def statRing : RingResources := ⟨.statCall, .statBufDesc, .statDescDmaCmd⟩

/-- The labels `error_dma` and `error_prep`; `freeFirst` is what follows them. -/
def RingResources.errorPrep (r : RingResources) (freeFirst : DriverObject → DriverObject)
    (s : DriverObject) : DriverObject := freeFirst (s.drop r.bufDesc)

/-- The labels `error_segm` and `error_set_desc`. -/
def RingResources.errorSegm (r : RingResources) (freeFirst : DriverObject → DriverObject)
    (s : DriverObject) : DriverObject := r.errorPrep freeFirst (s.drop r.dmaCmd)

/-- What the setup functions of the three rings share. -/
def setupRing (r : RingResources) (freeFirst : DriverObject → DriverObject) (k : RingCalls)
    (s : DriverObject) : Bool × DriverObject :=
  orGoto (s.call r.first k.first) (failing id) fun s =>
  orGoto (s.call r.bufDesc k.bufDesc) (failing freeFirst) fun s =>
  orGoto (k.prepare, s) (failing (r.errorPrep freeFirst)) fun s =>
  orGoto (s.call r.dmaCmd k.dmaCmd) (failing (r.errorPrep freeFirst)) fun s =>
  orGoto (k.setDesc, s) (failing (r.errorSegm freeFirst)) fun s =>
  orGoto (k.segments, s) (failing (r.errorSegm freeFirst)) fun s => (true, s)

/-! ### Transmit -/

def txDmaCmds : List Resource := (List.finRange kNumTxMemDesc).map .txDmaCmd

def freeTxMap : DriverObject :=
  if (s.handle .txMapMem).ptr then (s.dropAll txDmaCmds).drop .txMapMem else s

def txMapCalls : List (Option Resource × Bool) :=
  (List.finRange kNumTxMemDesc).map fun i => (some (.txDmaCmd i), c.txDmaCmd i)

def setupTxMap : Bool × DriverObject :=
  orGoto (s.call .txMapMem c.txMapMem) (failing id) fun s =>
  orGoto (s.takeAll (txMapCalls c)) (failing freeTxMap) fun s => (true, s)

/-- The label `error_buff`. -/
def freeTxArray : DriverObject := s.drop .txBufArrayMem

def setupTxResources : Bool × DriverObject :=
  orGoto (setupRing txRing freeTxArray c.tx s) (failing id) fun s =>
  orGoto (if s.useAppleVTD then setupTxMap c s else s.call .txMbufCursor c.txMbufCursor)
    (failing (txRing.errorSegm freeTxArray)) fun s => (true, s)

def freeTxResources : DriverObject :=
  (((if s.useAppleVTD then freeTxMap s else s.drop .txMbufCursor).drop .txBufDesc).drop
    .txDescDmaCmd).drop .txBufArrayMem

/-! ### Receive -/

def rxMbufs : List Resource := (List.finRange kNumRxDesc).map .rxMbuf

def rxMapResources : List Resource :=
  (List.finRange kNumRxMemDesc).flatMap fun i => [.rxDmaCmd i, .rxMemIo i]

def freeRxMap : DriverObject :=
  if (s.handle .rxMapMem).ptr then (s.dropAll rxMapResources).drop .rxMapMem else s

/-- The calls for a batch of receive buffers: the memory descriptor, its `prepare`, the DMA command,
`setMemoryDescriptor`, and a segment for each buffer. -/
def rxBatchCalls (i : Fin kNumRxMemDesc) : List (Option Resource × Bool) :=
  [(some (.rxMemIo i), c.rxMemIo i), (none, c.rxPrepare i), (some (.rxDmaCmd i), c.rxDmaCmd i),
    (none, c.rxSetDesc i)] ++ (List.range kRxMemBatchSize).map fun k => (none, c.rxSegment i k)

def rxMapCalls : List (Option Resource × Bool) := (List.finRange kNumRxMemDesc).flatMap (rxBatchCalls c)

def setupRxMap : Bool × DriverObject :=
  orGoto (s.call .rxMapMem c.rxMapMem) (failing id) fun s =>
  orGoto (s.takeAll (rxMapCalls c)) (failing freeRxMap) fun s => (true, s)

def freeRxArray : DriverObject := s.drop .rxBufArrayMem

def rxMbufCalls : List (Option Resource × Bool) :=
  (List.finRange kNumRxDesc).map fun i => (some (.rxMbuf i), c.rxMbuf i)

/-- The label `error_buf`. -/
def errorBuf : DriverObject := rxRing.errorSegm freeRxArray ((s.dropAll rxMbufs).drop .rxPool)

/-- If `setupRxMap` fails, nothing is released here. -/
def setupRxResources : Bool × DriverObject :=
  orGoto (setupRing rxRing freeRxArray c.rx s) (failing id) fun s =>
  orGoto (s.call .rxPool c.rxPool) (failing (rxRing.errorSegm freeRxArray)) fun s =>
  orGoto (s.takeAll (rxMbufCalls c)) (failing errorBuf) fun s =>
  if s.useAppleVTD then setupRxMap c s else (true, s)

/-- The receive buffers and the array they are in. -/
def freeRxMbufs : DriverObject :=
  if (s.handle .rxBufArrayMem).ptr then (s.dropAll rxMbufs).drop .rxBufArrayMem else s

def freeRxResources : DriverObject :=
  freeRxMbufs ((((if s.useAppleVTD then freeRxMap s else s).drop .rxDescDmaCmd).drop .rxBufDesc).drop
    .rxPool)

/-! ### Statistics and event sources -/

/-- The label `error_mem` of `setupStatResources` frees the thread call and leaves `statCall`. -/
def setupStatResources : Bool × DriverObject :=
  setupRing statRing (DriverObject.dropKept .statCall) c.stat s

def freeStatResources : DriverObject :=
  ((s.drop .statCall).drop .statBufDesc).drop .statDescDmaCmd

def initEventSources : Bool × DriverObject :=
  orGoto (s.call .txQueue c.txQueue) (failing id) fun s =>
  orGoto (s.call .interruptSource c.interrupt) (failing (DriverObject.drop .txQueue)) fun s =>
  orGoto (s.call .timerSource c.timer)
    (failing fun s => (s.drop .interruptSource).drop .txQueue) fun s => (true, s)

/-! ### `start` and `free` -/

def errorOpen : DriverObject := s.drop .pciDevice
def errorCfg : DriverObject := errorOpen (s.drop .pciOpen)
def errorGate : DriverObject := errorCfg (s.drop .mediumDict)
def errorDma1 : DriverObject := errorGate (s.drop .commandGate)
def errorDma2 : DriverObject := errorDma1 (freeTxResources s)
def errorDma3 : DriverObject := errorDma2 (freeRxResources s)
def errorSrc : DriverObject := errorDma3 (freeStatResources s)

/-- A label from which `start` returns `result` as it is. -/
def done (result : Bool) (f : DriverObject → DriverObject) (s : DriverObject) :
    Option (Bool × DriverObject) := some (result, f s)

/-- From `setupTxResources` on.  `result` is what `super::start` returned, up to `attachInterface`. -/
def startRings (result : Bool) : Option (Bool × DriverObject) :=
  orGoto (setupTxResources c s) (done result errorDma1) fun s =>
  orGoto (setupRxResources c s) (done result errorDma2) fun s =>
  orGoto (setupStatResources c s) (done result errorDma3) fun s =>
  orGoto (initEventSources c s) (done result errorSrc) fun s =>
  orGoto (c.attach, s) (done c.attach errorSrc) fun s =>
  done true (fun s => { s.drop .pciOpen with attached := true }) s

/-- From `setupMediumDict` on. -/
def startMedium (result : Bool) : Option (Bool × DriverObject) :=
  (setupMediumDict c s).bind fun m =>
  orGoto m (done result errorCfg) fun s =>
  orGoto (s.call .commandGate c.gate) (done result errorGate) fun s => startRings c s result

/-- `getParams`, and the choice of the DMA path. -/
def chooseDma : DriverObject := { s with useAppleVTD := c.appleVTD || (c.arm64 && c.mapper) }

/-- `super::start` calls `createWorkLoop` and fails if it does. -/
def start : Option (Bool × DriverObject) :=
  let result := c.createWorkLoop && c.superStart
  orGoto (result, s.take .workLoop c.createWorkLoop) (done result id) fun s =>
  orGoto (s.call .pciDevice c.provider) (done result id) fun s =>
  orGoto (s.call .pciOpen c.openDevice) (done result errorOpen) fun s =>
  orGoto ((chooseDma c (s.take .mapper c.mapper)).call .baseMap c.baseMap) (done result errorCfg) fun s =>
  orGoto (c.chip, s) (done result errorCfg) fun s => startMedium c s result

/-- The event sources and the work loop they are on. -/
def freeWorkLoop : DriverObject :=
  if (s.handle .workLoop).ptr then
    ((s.drop .interruptSource).drop .timerSource).drop .workLoop
  else s

def free : DriverObject :=
  let s := ((((freeWorkLoop s).drop .commandGate).drop .txQueue).drop .mediumDict)
  freeStatResources (freeRxResources (freeTxResources ((s.drop .baseMap).drop .pciDevice)))

/-! ### Which steps succeed -/

def RingCalls.ok (k : RingCalls) : Bool :=
  k.first && k.bufDesc && k.prepare && k.dmaCmd && k.setDesc && k.segments

namespace StartCalls

/-- Whether the mapped DMA path is taken. -/
def vtd : Bool := c.appleVTD || (c.arm64 && c.mapper)

def started : Bool := c.createWorkLoop && c.superStart
def opened : Bool := c.started && c.provider && c.openDevice
def configured : Bool := c.opened && c.baseMap && c.chip

def mediaAdded : Bool := (addMedia c (List.range c.limit) false).1
def mediumOk : Bool := c.dict && c.mediaAdded && c.publish

/-- What `setupMediumDict` returns if there is a dictionary. -/
def mediumResult : Bool :=
  if c.mediaAdded then c.publish else (addMedia c (List.range c.limit) false).2

def txOk : Bool :=
  c.tx.ok && if c.vtd then c.txMapMem && (txMapCalls c).all Prod.snd else c.txMbufCursor

def rxOk : Bool :=
  c.rx.ok && c.rxPool && (rxMbufCalls c).all Prod.snd &&
    (!c.vtd || (c.rxMapMem && (rxMapCalls c).all Prod.snd))

def eventsOk : Bool := c.txQueue && c.interrupt && c.timer

/-- From `setupTxResources` to `attachInterface`. -/
def ringsOk : Bool := c.txOk && c.rxOk && c.stat.ok && c.eventsOk

/-- Every step before `attachInterface` returns success. -/
def attachReached : Bool := c.configured && c.dict && c.mediumResult && c.gate && c.ringsOk

def allOk : Bool := c.configured && c.mediumOk && c.gate && c.ringsOk && c.attach

end StartCalls

end Rtl812x.Kext.Start
