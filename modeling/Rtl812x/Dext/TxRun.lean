import Rtl812x.Lib.Runs
import Rtl812x.Dext.Driver

/-!
# Runs of the transmit side

The steps a run is made of (`TxOp`, `txStep`), and what each does to the transmit side.  Whatever
`updateLinkStatus` and `setInterfaceEnable` do to the rest of the driver, the transmit side sees
only four things: requests to the framework's queues, a ring restart, an abort, and a link-down.
`TxKept P Idle` says that a property `P` survives these four, ring restarts being started from an
`Idle` state; the theorems `TxKept.updateLinkStatus`, `TxKept.enable` and `TxKept.disable`
carry it over to the entry points.
-/

namespace Rtl812x.Dext

open WrapCounter

/-- A step of a run, with the register readings it meets. -/
inductive TxOp where
  | dequeue (queue : PacketQueue) (packets : List TxPacket)
  | reclaim (clo : ℕ)
  | abort
  | enqueue (queue : PacketQueue) (arrayCapacity : ℕ)
  | link (phy phy' : UInt32)
  | enable (on : Bool) (phy phy' : UInt32)

def txStep (c : Config) (d : Driver) : TxOp → Driver
  | .dequeue queue packets => { d with tx := (txDequeueAction c.mcfg d.linkUp queue packets d.tx).2 }
  | .reclaim clo => { d with tx := txRingReclaim c.mcfg false clo d.tx }
  | .abort => { d with tx := txRingReclaim c.mcfg true 0 d.tx }
  | .enqueue queue capacity => { d with tx := (txEnqueueAction queue capacity d.tx).2 }
  | .link phy phy' => updateLinkStatus c phy phy' d
  | .enable on phy phy' => setInterfaceEnable c on phy phy' d

/-- A close-pointer reading is legal when it lies between the last one seen and the tail. -/
def LegalClose (m : Mcfg) (h : TxIndex) (clo : ℕ) : Prop :=
  ∃ k ≤ lag (descPtrPeriod m) h.txTailPtr0 h.txClosePtr0,
    rtl812xGetHwCloPtr (hwSuppTxNoCloseVer m) clo ≡ h.txClosePtr0 + k [MOD descPtrPeriod m]

/-- An RTL8127 in copper mode whose receive pool gives nothing out. -/
def copperConfig : Config where
  mcfg := .m41
  fiberMode := false
  iova := id
  outcome := fun _ => none

/-- A 60-byte packet without offload requests. -/
def plainPacket (id : ℕ) : TxPacket where
  id := id
  dataLength := 60
  dataOff := 0
  dataVirtualAddress := 0x1000
  dataIOVirtualAddress := 0x1000
  buffer := fun _ => 0
  mss := 0
  tsoIPV4 := false
  tsoIPV6 := false
  csumPartial := false
  csumTCPIPV4 := false
  csumUDPIPV4 := false
  csumTCPIPV6 := false
  csumUDPIPV6 := false
  csumIPHdr := false
  csumStart := 0
  csumStuff := 0

/-- A PHYstatus reading of a 10 Gbit/s full-duplex link. -/
def phy10G : UInt32 := 0x4003

/-! ### The transmit side of the entry points -/

@[simp] theorem writeChipCmd_tx (v : UInt8) (d : Driver) : (writeChipCmd v d).tx = d.tx := by
  unfold writeChipCmd
  split <;> rfl

@[simp] theorem writeChipCmd_linkUp (v : UInt8) (d : Driver) :
    (writeChipCmd v d).linkUp = d.linkUp := by
  unfold writeChipCmd
  split <;> rfl

@[simp] theorem nicReset_tx (d : Driver) : (nicReset d).tx = d.tx := by
  simp [nicReset]

@[simp] theorem hwReset_tx (d : Driver) : (hwReset d).tx = d.tx := by
  simp [hwReset, writeTimerInt0, writeImr0]

@[simp] theorem rtl812xHwConfig_tx (d : Driver) : (rtl812xHwConfig d).tx = txRingReset d.tx := by
  simp [rtl812xHwConfig, writeImr0, writeTimerInt0]

@[simp] theorem rtl812xEnable_tx (d : Driver) : (rtl812xEnable d).tx = txRingReset d.tx := by
  simp [rtl812xEnable]

@[simp] theorem startEngines_tx (c : Config) (d : Driver) :
    (startEngines c d).tx = txRingReset d.tx := by
  simp [startEngines, armRing, writeImr0]

theorem linkOn_tx (c : Config) (phy : UInt32) (d : Driver) :
    (linkOn c phy d).tx = txRingReset d.tx ∨
      (linkOn c phy d).tx = txRequestDequeueAll (txRingReset d.tx) := by
  simp only [linkOn]
  split
  · right
    simp
  · left
    simp

@[simp] theorem linkOff_tx (c : Config) (d : Driver) :
    (linkOff c d).tx = txLinkDown c.mcfg d.tx := by
  simp [linkOff]

/-! ### Properties the entry points keep -/

/-- `P` survives what the link and enable handling do to the transmit side. -/
structure TxKept (m : Mcfg) (P Idle : TxSide → Prop) : Prop where
  requestAll : ∀ s, P s → P (txRequestDequeueAll s)
  reset : ∀ s, Idle s → P s → P (txRingReset s)
  idle_reset : ∀ s, Idle (txRingReset s)
  linkDown : ∀ s, P s → P (txLinkDown m s)
  abort : ∀ s, P s → P (txRingReclaim m true 0 s)

variable {m : Mcfg} {c : Config} {P Idle : TxSide → Prop} {d : Driver} {phy phy' : UInt32}

theorem TxKept.linkOn (hk : TxKept c.mcfg P Idle) (hd : P d.tx) (hidle : Idle d.tx) :
    P (linkOn c phy d).tx := by
  have hreset := hk.reset d.tx hidle hd
  rcases linkOn_tx c phy d with h | h
  · rw [h]
    exact hreset
  · rw [h]
    exact hk.requestAll _ hreset

/-- A link change keeps `P`; only a link-up reading needs an idle ring. -/
theorem TxKept.updateLinkStatus (hk : TxKept c.mcfg P Idle) (hd : P d.tx)
    (hidle : phyLinkUp phy = true → Idle d.tx) : P (updateLinkStatus c phy phy' d).tx := by
  unfold Dext.updateLinkStatus
  split
  · exact hk.linkOn hd (hidle ‹_›)
  · split
    · split
      · exact hd
      · rw [linkOff_tx]
        exact hk.linkDown _ hd
    · exact hd

/-- Enabling restarts the ring and then looks at the link. -/
theorem TxKept.enable (hk : TxKept c.mcfg P Idle) (hreset : P (txRingReset d.tx)) :
    P (setInterfaceEnable c true phy phy' d).tx := by
  have hlink : P (Dext.updateLinkStatus c phy phy' (startEngines c d)).tx := by
    apply hk.updateLinkStatus
    · rw [startEngines_tx]
      exact hreset
    · intro _
      rw [startEngines_tx]
      exact hk.idle_reset d.tx
  exact hk.requestAll _ hlink

theorem TxKept.disable (hk : TxKept c.mcfg P Idle) (hd : P d.tx) :
    P (setInterfaceEnable c false phy phy' d).tx := by
  have htx : (setInterfaceEnable c false phy phy' d).tx = txRingReclaim c.mcfg true 0 d.tx := by
    simp [setInterfaceEnable, rtl812xDisable, writeImr0]
  rw [htx]
  exact hk.abort _ hd

end Rtl812x.Dext
