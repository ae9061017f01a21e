import Rtl812x.Dext.Tx
import Rtl812x.Dext.Rx

/-!
# The dext driver

The whole driver: the transmit and the receive side, the few chip registers the drivers' protocol
rests on, and the entry points that work on all of them — `updateLinkStatus`,
`setInterfaceEnable`, `InterruptOccurred` and `StatsTimerOccurred`.

The hardware layer is modelled by what it does to this state.  `rtl8125_nic_reset` and
`rtl8125_hw_reset` stop the engines, `rtl812xHwConfig` resets the chip and restarts the driver's
ring indices.  Register readings are arguments of the entry points: `phy` and `phy'` are the two
PHYstatus readings of `updateLinkStatus`, `clo` is the close-pointer register.

Each time ChipCmd is written with `CmdRxEnb` for the first time after a reset, the driver's view
of the receive ring is recorded in `rxStarts`; no function reads the record.
-/

namespace Rtl812x.Dext

def sysErr : UInt32 := 0x8000
def stopReq : UInt8 := 0x80
def fullDup : UInt32 := 0x01

def intrMaskRxTx : UInt32 := sysErr ||| linkChg ||| rxDescUnavail ||| txOK ||| rxOK
def intrMaskTimer : UInt32 := sysErr ||| linkChg ||| rxDescUnavail ||| pcsTimeout ||| rxOK

/-- The framework's media types the driver reports. -/
inductive MediaType where
  | ethernet10GBaseSR | ethernet10GBaseT | ethernet5000BaseT | ethernet2500BaseT
  | ethernet1000BaseSX | ethernet1000BaseT | ethernet100BaseTX | ethernet10BaseT
deriving DecidableEq, Repr

structure Media where
  type : MediaType
  fullDuplex : Bool
deriving DecidableEq, Repr

/-- The media word `updateLinkStatus` derives from a link-up reading. -/
def mediaOfStatus (fiberMode : Bool) (status : UInt32) : Media where
  type :=
    if status &&& 0x4000 ≠ 0 then
      if fiberMode then .ethernet10GBaseSR else .ethernet10GBaseT
    else if status &&& (0x1000 ||| 0x2000) ≠ 0 then .ethernet5000BaseT
    else if status &&& (0x400 ||| 0x800) ≠ 0 then .ethernet2500BaseT
    else if status &&& (0x10 ||| 0x200 ||| 0x80000) ≠ 0 then
      if fiberMode then .ethernet1000BaseSX else .ethernet1000BaseT
    else if status &&& 0x08 ≠ 0 then .ethernet100BaseTX
    else .ethernet10BaseT
  fullDuplex := status &&& fullDup != 0

/-- What does not change while the driver runs. -/
structure Config where
  mcfg : Mcfg
  fiberMode : Bool
  /-- The device address of a receive packet's buffer. -/
  iova : ℕ → ℕ
  /-- What each call of `allocatePacket` does. -/
  outcome : ℕ → Option ℕ

/-- The chip registers the driver writes, and whether the chip was reset since the receive engine
was last started. -/
structure Chip where
  chipCmd : UInt8
  imr0 : UInt32
  timerInt0 : UInt32
  wasReset : Bool
deriving DecidableEq, Repr

/-- The driver's view of the receive ring when the engine starts after a reset. -/
structure RxStart where
  rxNextDescIndex : ℕ
  rxPkt : ℕ → Option ℕ
  rxRing : ℕ → RxDesc

/-- The driver's state. -/
structure Driver where
  tx : TxSide
  rx : RxSide
  chip : Chip
  intrMask : UInt32
  interfaceEnabled : Bool
  linkUp : Bool
  currentMedia : Option Media
  isrRx : ℕ
  rxStallIsrSample : ℕ
  rxStallDeliveredSample : ℕ
  /-- The `reportLinkStatus` calls, newest first: active or not, and the media. -/
  reports : List (Bool × Option Media)
  rxStarts : List RxStart

/-- The state after `Start`. -/
def Driver.init : Driver where
  tx := TxSide.init
  rx := RxSide.init
  chip := ⟨0, 0, 0, true⟩
  intrMask := intrMaskRxTx
  interfaceEnabled := false
  linkUp := false
  currentMedia := none
  isrRx := 0
  rxStallIsrSample := 0
  rxStallDeliveredSample := 0
  reports := []
  rxStarts := []

/-- The receive engine is enabled. -/
def Driver.rxOn (d : Driver) : Prop := d.chip.chipCmd &&& cmdRxEnb ≠ 0

instance (d : Driver) : Decidable d.rxOn := inferInstanceAs (Decidable (_ ≠ _))

/-! ### The hardware layer -/

/-- A write of ChipCmd. -/
def writeChipCmd (v : UInt8) (d : Driver) : Driver :=
  if v &&& cmdRxEnb ≠ 0 ∧ d.chip.wasReset then
    { d with
      chip := { d.chip with chipCmd := v, wasReset := false }
      rxStarts := ⟨d.rx.rxNextDescIndex, d.rx.rxPkt, d.rx.rxRing⟩ :: d.rxStarts }
  else { d with chip := { d.chip with chipCmd := v } }

def writeImr0 (v : UInt32) (d : Driver) : Driver := { d with chip := { d.chip with imr0 := v } }

def writeTimerInt0 (v : UInt32) (d : Driver) : Driver :=
  { d with chip := { d.chip with timerInt0 := v } }

/-- Stop the engines and soft-reset the chip, which clears ChipCmd. -/
def nicReset (d : Driver) : Driver :=
  let d := writeChipCmd (d.chip.chipCmd ||| stopReq) d
  let d := writeChipCmd (d.chip.chipCmd &&& (cmdTxEnb ||| cmdRxEnb)) d
  { d with chip := { d.chip with chipCmd := 0, wasReset := true } }

def hwReset (d : Driver) : Driver := nicReset (writeTimerInt0 0 (writeImr0 0 d))

/-- Reset and configure the chip; the driver's ring indices restart. -/
def rtl812xHwConfig (d : Driver) : Driver :=
  let d := writeTimerInt0 0 (nicReset d)
  writeImr0 d.intrMask
    { d with tx := txRingReset d.tx, rx := { d.rx with rxNextDescIndex := 0 } }

def rtl812xEnable (d : Driver) : Driver :=
  rtl812xHwConfig (hwReset (nicReset { d with intrMask := intrMaskRxTx }))

def rtl812xDisable (d : Driver) : Driver := hwReset (writeImr0 0 d)

/-- Ask the framework for packets on every transmit queue, newest request first. -/
def txRequestDequeueAll (s : TxSide) : TxSide :=
  { s with trace := ((List.range kNumTxQueues).map TxEvent.requestDequeue).reverse ++ s.trace }

def rxRequestDequeue (s : RxSide) : RxSide := { s with trace := .requestDequeue :: s.trace }

section Entry

variable (c : Config)

/-! ### Link changes -/

/-- The link is up: configure the chip and restart the datapath. -/
def linkOn (phy : UInt32) (d : Driver) : Driver :=
  let media := mediaOfStatus c.fiberMode phy
  let d := writeChipCmd (cmdTxEnb ||| cmdRxEnb) (rtl812xHwConfig d)
  if d.linkUp = false ∨ some media ≠ d.currentMedia then
    { d with
      linkUp := true
      currentMedia := some media
      reports := (true, some media) :: d.reports
      tx := txRequestDequeueAll d.tx
      rx := rxRequestDequeue d.rx }
  else d

/-- The link is down: reset the chip, return what is in flight and restart both rings. -/
def linkOff (d : Driver) : Driver :=
  let d := hwReset { d with linkUp := false }
  { d with
    tx := txLinkDown c.mcfg d.tx
    rx := rxRingRearm c.iova c.outcome d.rx
    reports := (false, d.currentMedia) :: d.reports }

/-- A link change; a link that is down must still be down at a second reading. -/
def updateLinkStatus (phy phy' : UInt32) (d : Driver) : Driver :=
  if phyLinkUp phy then linkOn c phy d
  else if d.linkUp then
    if phyLinkUp phy' then d else linkOff c d
  else d

/-! ### Enabling and disabling the interface -/

/-- Fill the receive ring of a configured chip. -/
def armRing (d : Driver) : Driver :=
  { d with
    rx := rxRequestDequeue (rxRingRefill c.iova c.outcome d.rx).2
    interfaceEnabled := true }

/-- What `setInterfaceEnable(true)` does before it looks at the link. -/
def startEngines (d : Driver) : Driver :=
  let d := writeChipCmd (cmdTxEnb ||| cmdRxEnb) (armRing c (rtl812xEnable d))
  writeImr0 d.intrMask d

def setInterfaceEnable (enable : Bool) (phy phy' : UInt32) (d : Driver) : Driver :=
  if enable then
    let d := updateLinkStatus c phy phy' (startEngines c d)
    { d with tx := txRequestDequeueAll d.tx }
  else
    let d := rtl812xDisable { d with interfaceEnabled := false, linkUp := false }
    { d with
      tx := txRingReclaim c.mcfg true 0 d.tx
      rx := rxRingDrop d.rx
      reports := (false, d.currentMedia) :: d.reports }

/-! ### Interrupts and the statistics timer -/

/-- Serve the receive ring if the status asks for it. -/
def irqRx (status : UInt32) (d : Driver) : Driver :=
  if status &&& (rxOK ||| rxDescUnavail) ≠ 0 then
    { d with rx := rxRingService c.iova c.outcome d.rx }
  else d

/-- Sweep the transmit completions if the status asks for it. -/
def irqTx (status : UInt32) (clo : ℕ) (d : Driver) : Driver :=
  if status &&& (txOK ||| rxOK ||| pcsTimeout) ≠ 0 then
    { d with tx := txRingReclaim c.mcfg false clo d.tx }
  else d

/-- Interrupt mitigation: after a burst the chip timer sweeps the completions. -/
def irqMitigate (status : UInt32) (d : Driver) : Driver :=
  if status &&& (txOK ||| rxOK) ≠ 0 then
    { writeTimerInt0 0x5000 d with intrMask := intrMaskTimer }
  else if status &&& pcsTimeout ≠ 0 then
    { writeTimerInt0 0 d with intrMask := intrMaskRxTx }
  else d

/-- Mask the interrupts and count the receive ones. -/
def irqAck (status : UInt32) (d : Driver) : Driver :=
  { writeImr0 0 d with
    isrRx := if status &&& (rxOK ||| rxDescUnavail) ≠ 0 then d.isrRx + 1 else d.isrRx }

/-- The datapath part of an interrupt, while the interface is enabled. -/
def irqData (status : UInt32) (clo : ℕ) (d : Driver) : Driver :=
  if d.interfaceEnabled then irqMitigate status (irqTx c status clo (irqRx c status d)) else d

/-- Handle a link change. -/
def irqLink (status phy phy' : UInt32) (d : Driver) : Driver :=
  if status &&& linkChg ≠ 0 ∧ d.interfaceEnabled then
    { writeTimerInt0 0 (updateLinkStatus c phy phy' d) with intrMask := intrMaskRxTx }
  else d

/-- The interrupt handler, for a status word and the readings it leads to. -/
def interruptOccurred (status : UInt32) (clo : ℕ) (phy phy' : UInt32) (d : Driver) : Driver :=
  if status = 0xFFFFFFFF ∨ status = 0 then d
  else
    let d := irqLink c status phy phy' (irqData c status clo (irqAck status d))
    writeImr0 d.intrMask d

def rearmRing (d : Driver) : Driver := { d with rx := rxRingRearm c.iova c.outcome d.rx }

/-- Re-arm the ring of a receive engine that is stuck. -/
def rxStallRecover (d : Driver) : Driver :=
  let d := writeChipCmd (cmdTxEnb ||| cmdRxEnb) (rearmRing c (writeChipCmd cmdTxEnb d))
  { d with rx := rxRequestDequeue d.rx }

/-- The receive ring looks stuck: many interrupts since the last tick, nothing delivered. -/
def Driver.rxStalled (d : Driver) : Prop :=
  d.linkUp ∧ d.isrRx - d.rxStallIsrSample > 5000 ∧ d.rx.rxDelivered = d.rxStallDeliveredSample

instance (d : Driver) : Decidable d.rxStalled := inferInstanceAs (Decidable (_ ∧ _ ∧ _))

/-- The 5 s statistics tick, as far as it acts on the rings. -/
def statsTimerOccurred (d : Driver) : Driver :=
  if d.interfaceEnabled then
    let d := if d.rxStalled then rxStallRecover c d else d
    { d with rxStallIsrSample := d.isrRx, rxStallDeliveredSample := d.rx.rxDelivered }
  else d

end Entry

end Rtl812x.Dext
