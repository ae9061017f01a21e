import Rtl812x.Dext.Driver
import Rtl812x.Dext.RxRing

/-!
# What the entry points do to the receive side

`rtl812xHwConfig` moves the receive index back to 0 and leaves the descriptors alone, a link-down
re-arms the ring, an enable refills it; nothing else that `updateLinkStatus` and
`setInterfaceEnable` do reaches the receive ring.  A reset stops the receive engine.
-/

namespace Rtl812x.Dext

/-! ### The receive side of the entry points -/

@[simp] theorem writeChipCmd_rx (v : UInt8) (d : Driver) : (writeChipCmd v d).rx = d.rx := by
  unfold writeChipCmd
  split <;> rfl

@[simp] theorem writeChipCmd_interfaceEnabled (v : UInt8) (d : Driver) :
    (writeChipCmd v d).interfaceEnabled = d.interfaceEnabled := by
  unfold writeChipCmd
  split <;> rfl

@[simp] theorem nicReset_rx (d : Driver) : (nicReset d).rx = d.rx := by
  simp [nicReset]

@[simp] theorem nicReset_interfaceEnabled (d : Driver) :
    (nicReset d).interfaceEnabled = d.interfaceEnabled := by
  simp [nicReset]

@[simp] theorem hwReset_rx (d : Driver) : (hwReset d).rx = d.rx := by
  simp [hwReset, writeTimerInt0, writeImr0]

@[simp] theorem hwReset_interfaceEnabled (d : Driver) :
    (hwReset d).interfaceEnabled = d.interfaceEnabled := by
  simp [hwReset, writeTimerInt0, writeImr0]

@[simp] theorem rtl812xHwConfig_rx (d : Driver) :
    (rtl812xHwConfig d).rx = { d.rx with rxNextDescIndex := 0 } := by
  simp [rtl812xHwConfig, writeImr0, writeTimerInt0]

@[simp] theorem rtl812xHwConfig_interfaceEnabled (d : Driver) :
    (rtl812xHwConfig d).interfaceEnabled = d.interfaceEnabled := by
  simp [rtl812xHwConfig, writeImr0, writeTimerInt0]

theorem rxRequestDequeue_next (s : RxSide) :
    (rxRequestDequeue s).rxNextDescIndex = s.rxNextDescIndex := rfl

theorem startEngines_rx (c : Config) (d : Driver) :
    (startEngines c d).rx = rxRequestDequeue
      (rxRingRefill c.iova c.outcome { d.rx with rxNextDescIndex := 0 }).2 := by
  simp [startEngines, armRing, writeImr0, rtl812xEnable]

theorem startEngines_interfaceEnabled (c : Config) (d : Driver) :
    (startEngines c d).interfaceEnabled = true := by
  simp [startEngines, armRing, writeImr0]

theorem linkOn_rx (c : Config) (phy : UInt32) (d : Driver) :
    (linkOn c phy d).rx = { d.rx with rxNextDescIndex := 0 } ∨
      (linkOn c phy d).rx = rxRequestDequeue { d.rx with rxNextDescIndex := 0 } := by
  simp only [linkOn]
  split
  · right
    simp
  · left
    simp

@[simp] theorem linkOn_interfaceEnabled (c : Config) (phy : UInt32) (d : Driver) :
    (linkOn c phy d).interfaceEnabled = d.interfaceEnabled := by
  simp only [linkOn]
  split <;> simp

@[simp] theorem linkOff_rx (c : Config) (d : Driver) :
    (linkOff c d).rx = rxRingRearm c.iova c.outcome d.rx := by
  simp [linkOff]

@[simp] theorem linkOff_interfaceEnabled (c : Config) (d : Driver) :
    (linkOff c d).interfaceEnabled = d.interfaceEnabled := by
  simp [linkOff]

theorem updateLinkStatus_interfaceEnabled (c : Config) (phy phy' : UInt32) (d : Driver) :
    (updateLinkStatus c phy phy' d).interfaceEnabled = d.interfaceEnabled := by
  unfold updateLinkStatus
  split
  · simp
  · split
    · split
      · rfl
      · simp
    · rfl

theorem irqMitigate_rx (status : UInt32) (d : Driver) : (irqMitigate status d).rx = d.rx := by
  unfold irqMitigate
  split
  · rfl
  · split <;> rfl

theorem irqTx_rx (c : Config) (status : UInt32) (clo : ℕ) (d : Driver) :
    (irqTx c status clo d).rx = d.rx := by
  unfold irqTx
  split <;> rfl

/-- A pool that gives out one packet, once. -/
def shortPoolConfig : Config where
  mcfg := .m41
  fiberMode := false
  iova := fun p => 0x1000 * p
  outcome := fun n => if n = 0 then some 0 else none

end Rtl812x.Dext
