import Rtl812x.Dext.TxRun
import Rtl812x.Dext.RxRun

/-!
# Interrupt mitigation in the dext

After an interrupt for received or transmitted packets the handler arms the chip timer and waits
for it (`intrMaskTimer`, without `TxOK`) instead of for the next transmit interrupt; when the timer
has run out it goes back to `intrMaskRxTx`.  Whether a transmit completion is ever noticed hangs on
three words that are written apart: the variable `intrMask`, the register IMR0 and the register
TIMER_INT0, which a chip reset and `rtl812xHwConfig` clear.

* `IrqState` — these words and the two flags they are handled under; one equation for each function
  says what it does to them (`hwReset_irqState`, `rtl812xHwConfig_irqState`, ...);
* `Woken` — the invariant, kept by the interrupt handler (`Woken.interruptOccurred`) and by
  `setInterfaceEnable` (`Woken.setInterfaceEnable`);
* `tx_wakeUp` — **whenever a call returns with the interface enabled, a transmit completion or the
  timer will raise an interrupt**.
-/

namespace Rtl812x.Dext

open Runs

/-- What decides about the next interrupt. -/
structure IrqState where
  intrMask : UInt32
  imr0 : UInt32
  timerInt0 : UInt32
  linkUp : Bool
  interfaceEnabled : Bool

def Driver.irqState (d : Driver) : IrqState where
  intrMask := d.intrMask
  imr0 := d.chip.imr0
  timerInt0 := d.chip.timerInt0
  linkUp := d.linkUp
  interfaceEnabled := d.interfaceEnabled

variable {c : Config} {d : Driver} {status phy phy' : UInt32} {clo : ℕ}

/-! ### The hardware layer -/

@[simp] theorem writeChipCmd_irqState (v : UInt8) (d : Driver) :
    (writeChipCmd v d).irqState = d.irqState := by
  unfold writeChipCmd
  split <;> rfl

@[simp] theorem nicReset_irqState (d : Driver) : (nicReset d).irqState = d.irqState := by
  show (writeChipCmd _ (writeChipCmd _ d)).irqState = d.irqState
  rw [writeChipCmd_irqState, writeChipCmd_irqState]

theorem hwReset_irqState (d : Driver) :
    (hwReset d).irqState = { d.irqState with imr0 := 0, timerInt0 := 0 } := by
  rw [hwReset, nicReset_irqState]
  rfl

theorem rtl812xHwConfig_irqState (d : Driver) :
    (rtl812xHwConfig d).irqState = { d.irqState with imr0 := d.intrMask, timerInt0 := 0 } := by
  rw [← nicReset_irqState d, show d.intrMask = (nicReset d).irqState.intrMask by
    rw [nicReset_irqState]; rfl]
  rfl

/-- `rtl812xEnable` starts with all interrupts and no timer. -/
theorem rtl812xEnable_irqState (d : Driver) :
    (rtl812xEnable d).irqState =
      { d.irqState with intrMask := intrMaskRxTx, imr0 := intrMaskRxTx, timerInt0 := 0 } := by
  have hreset : (hwReset (nicReset { d with intrMask := intrMaskRxTx })).irqState =
      { d.irqState with intrMask := intrMaskRxTx, imr0 := 0, timerInt0 := 0 } := by
    rw [hwReset_irqState, nicReset_irqState]
    rfl
  have hmask := congrArg IrqState.intrMask hreset
  rw [rtl812xEnable, rtl812xHwConfig_irqState, hreset]
  exact congrArg (fun v => ({ d.irqState with
    intrMask := intrMaskRxTx, imr0 := v, timerInt0 := 0 } : IrqState)) hmask

/-! ### The entry points -/

/-- Link up: the chip is configured again, with the mask the handler has at the moment. -/
theorem linkOn_irqState (c : Config) (phy : UInt32) (d : Driver) :
    (linkOn c phy d).irqState =
      { d.irqState with imr0 := d.intrMask, timerInt0 := 0, linkUp := true } := by
  have hchip : (writeChipCmd (cmdTxEnb ||| cmdRxEnb) (rtl812xHwConfig d)).irqState =
      { d.irqState with imr0 := d.intrMask, timerInt0 := 0 } := by
    rw [writeChipCmd_irqState, rtl812xHwConfig_irqState]
  simp only [linkOn]
  split
  case isTrue =>
    exact congrArg (fun w : IrqState => { w with linkUp := true }) hchip
  case isFalse hkept =>
    rw [not_or, Bool.not_eq_false] at hkept
    rw [hchip]
    have hup := congrArg IrqState.linkUp hchip
    exact congrArg (fun b => ({ d.irqState with
      imr0 := d.intrMask, timerInt0 := 0, linkUp := b } : IrqState)) (hup.symm.trans hkept.1)

theorem startEngines_irqState (c : Config) (d : Driver) :
    (startEngines c d).irqState =
      ⟨intrMaskRxTx, intrMaskRxTx, 0, d.linkUp, true⟩ := by
  have hchip : (writeChipCmd (cmdTxEnb ||| cmdRxEnb) (armRing c (rtl812xEnable d))).irqState =
      ⟨intrMaskRxTx, intrMaskRxTx, 0, d.linkUp, true⟩ := by
    rw [writeChipCmd_irqState]
    exact congrArg (fun w : IrqState => { w with interfaceEnabled := true })
      (rtl812xEnable_irqState d)
  exact congrArg (fun w : IrqState => { w with imr0 := w.intrMask }) hchip

/-- What mitigation does to the words. -/
def IrqState.mitigate (status : UInt32) (w : IrqState) : IrqState :=
  if status &&& (txOK ||| rxOK) ≠ 0 then { w with intrMask := intrMaskTimer, timerInt0 := 0x5000 }
  else if status &&& pcsTimeout ≠ 0 then { w with intrMask := intrMaskRxTx, timerInt0 := 0 }
  else w

theorem irqMitigate_irqState (status : UInt32) (d : Driver) :
    (irqMitigate status d).irqState = d.irqState.mitigate status := by
  unfold irqMitigate IrqState.mitigate
  split
  · rfl
  · split <;> rfl

/-- Serving the rings leaves the words alone. -/
theorem irqTx_irqRx_irqState (c : Config) (status : UInt32) (clo : ℕ) (d : Driver) :
    (irqTx c status clo (irqRx c status d)).irqState = d.irqState := by
  unfold irqTx irqRx
  split <;> split <;> rfl

theorem irqData_irqState (c : Config) (status : UInt32) (clo : ℕ) (d : Driver) :
    (irqData c status clo d).irqState =
      if d.interfaceEnabled then d.irqState.mitigate status else d.irqState := by
  unfold irqData
  split
  · rw [irqMitigate_irqState, irqTx_irqRx_irqState]
  · rfl

/-! ### The invariant -/

/-- A mask without `TxOK` comes with a running timer. -/
def IrqState.Covered (w : IrqState) : Prop :=
  w.intrMask = intrMaskRxTx ∨ w.intrMask = intrMaskTimer ∧ w.timerInt0 ≠ 0

/-- While the interface is enabled the mask is covered; while it is disabled the link counts as
down. -/
structure Ready (w : IrqState) : Prop where
  down : w.interfaceEnabled = false → w.linkUp = false
  covered : w.interfaceEnabled = true → w.Covered

/-- The mask is also what the register holds. -/
structure Woken (w : IrqState) : Prop extends Ready w where
  written : w.interfaceEnabled = true → w.imr0 = w.intrMask

theorem IrqState.Covered.mitigate {w : IrqState} (hw : w.Covered) (status : UInt32) :
    (w.mitigate status).Covered := by
  unfold IrqState.mitigate
  split
  · exact Or.inr ⟨rfl, (by decide : (0x5000 : UInt32) ≠ 0)⟩
  · split
    · exact Or.inl rfl
    · exact hw

theorem IrqState.mitigate_interfaceEnabled (w : IrqState) (status : UInt32) :
    (w.mitigate status).interfaceEnabled = w.interfaceEnabled := by
  unfold IrqState.mitigate
  split
  · rfl
  · split <;> rfl

theorem Ready.irqAck (hw : Ready d.irqState) (status : UInt32) : Ready (irqAck status d).irqState :=
  ⟨hw.down, hw.covered⟩

theorem Ready.irqData (hw : Ready d.irqState) (c : Config) (status : UInt32) (clo : ℕ) :
    Ready (irqData c status clo d).irqState := by
  rw [irqData_irqState]
  split
  case isTrue hon =>
    refine ⟨fun hoff => ?_, fun _ => (hw.covered hon).mitigate status⟩
    rw [IrqState.mitigate_interfaceEnabled] at hoff
    exact absurd (hon.symm.trans hoff) (by decide)
  case isFalse => exact hw

/-- Link handling ends with all interrupts and no timer, whatever the link does. -/
theorem Ready.irqLink (hw : Ready d.irqState) (c : Config) (status phy phy' : UInt32) :
    Ready (irqLink c status phy phy' d).irqState := by
  unfold Dext.irqLink
  split
  case isTrue h =>
    refine ⟨fun hoff => ?_, fun _ => Or.inl rfl⟩
    have hon : (updateLinkStatus c phy phy' d).interfaceEnabled = true := by
      rw [updateLinkStatus_interfaceEnabled]
      exact h.2
    exact absurd (hon.symm.trans hoff) (by decide)
  case isFalse => exact hw

/-- **The interrupt handler keeps it**, for every status word: it ends with a write of the mask. -/
theorem Woken.interruptOccurred (hw : Woken d.irqState) :
    Woken (interruptOccurred c status clo phy phy' d).irqState := by
  unfold Dext.interruptOccurred
  split
  · exact hw
  · have hready := ((hw.irqAck status).irqData c status clo).irqLink c status phy phy'
    exact ⟨⟨hready.down, hready.covered⟩, fun _ => rfl⟩

/-- An interface that has just been enabled with its link down. -/
theorem updateLinkStatus_started (hdown : d.linkUp = false) (henabled : d.interfaceEnabled = true)
    (hmask : d.intrMask = intrMaskRxTx) (himr : d.chip.imr0 = intrMaskRxTx) :
    Woken (updateLinkStatus c phy phy' d).irqState := by
  unfold updateLinkStatus
  split
  · rw [linkOn_irqState]
    refine ⟨⟨fun hoff => ?_, fun _ => Or.inl hmask⟩, fun _ => rfl⟩
    exact absurd (henabled.symm.trans hoff) (by decide)
  · rw [hdown, if_neg Bool.false_ne_true]
    refine ⟨⟨fun _ => hdown, fun _ => Or.inl hmask⟩, fun _ => himr.trans hmask.symm⟩

/-- **Enabling and disabling keep it**; the link counts as down when the interface is enabled, so
that a link that is not up leaves the interrupts on. -/
theorem Woken.setInterfaceEnable {on : Bool} (hw : Woken d.irqState) (hon : on ≠ d.interfaceEnabled) :
    Woken (setInterfaceEnable c on phy phy' d).irqState := by
  cases on with
  | false =>
      have hoff : (rtl812xDisable { d with interfaceEnabled := false, linkUp := false }).irqState =
          { d.irqState with imr0 := 0, timerInt0 := 0, interfaceEnabled := false, linkUp := false } :=
        hwReset_irqState _
      show Woken (rtl812xDisable { d with interfaceEnabled := false, linkUp := false }).irqState
      rw [hoff]
      refine ⟨⟨fun _ => rfl, fun h => ?_⟩, fun h => ?_⟩ <;> cases h
  | true =>
      have hoff : d.interfaceEnabled = false := by simpa using hon.symm
      have hdown : d.linkUp = false := hw.down hoff
      have hstart := startEngines_irqState c d
      exact updateLinkStatus_started ((congrArg IrqState.linkUp hstart).trans hdown)
        (congrArg IrqState.interfaceEnabled hstart) (congrArg IrqState.intrMask hstart)
        (congrArg IrqState.imr0 hstart)

/-! ### Runs -/

/-- A call of the interrupt handler or of `setInterfaceEnable`, with the readings it meets. -/
inductive MaskOp where
  | interrupt (status : UInt32) (clo : ℕ) (phy phy' : UInt32)
  | enable (on : Bool) (phy phy' : UInt32)

def maskStep (c : Config) (d : Driver) : MaskOp → Driver
  | .interrupt status clo phy phy' => interruptOccurred c status clo phy phy' d
  | .enable on phy phy' => setInterfaceEnable c on phy phy' d

/-- The framework enables a disabled interface and disables an enabled one. -/
def Alternates (d : Driver) : MaskOp → Prop
  | .interrupt _ _ _ _ => True
  | .enable on _ _ => on ≠ d.interfaceEnabled

instance (d : Driver) : ∀ op, Decidable (Alternates d op)
  | .interrupt _ _ _ _ => isTrue trivial
  | .enable on _ _ => inferInstanceAs (Decidable (on ≠ d.interfaceEnabled))

theorem Woken.init : Woken Driver.init.irqState :=
  ⟨⟨fun _ => rfl, fun h => by cases h⟩, fun h => by cases h⟩

theorem Woken.step (hw : Woken d.irqState) (op : MaskOp) (hok : Alternates d op) :
    Woken (maskStep c d op).irqState := by
  cases op with
  | interrupt status clo phy phy' => exact hw.interruptOccurred
  | enable on phy phy' => exact hw.setInterfaceEnable hok

/-- **Transmit completions never lack a wake-up source**: whenever a call returns with the interface
enabled, IMR0 contains `TxOK`, or it contains `PCSTimeout` and the timer is set. -/
theorem tx_wakeUp (c : Config) (ops : List MaskOp)
    (hrun : Along (maskStep c) Alternates Driver.init ops)
    (hon : (exec (maskStep c) Driver.init ops).interfaceEnabled = true) :
    (exec (maskStep c) Driver.init ops).chip.imr0 &&& txOK ≠ 0 ∨
    (exec (maskStep c) Driver.init ops).chip.imr0 &&& pcsTimeout ≠ 0 ∧
      (exec (maskStep c) Driver.init ops).chip.timerInt0 ≠ 0 := by
  have hwoken : Woken (exec (maskStep c) Driver.init ops).irqState :=
    @invariant_along _ _ _ _ (fun d : Driver => Woken d.irqState)
      (fun _ op hw hok => hw.step op hok) _ _ Woken.init hrun
  have hwritten : (exec (maskStep c) Driver.init ops).chip.imr0 =
      (exec (maskStep c) Driver.init ops).intrMask := hwoken.written hon
  rcases hwoken.covered hon with hmask | ⟨hmask, htimer⟩
  · left
    rw [hwritten, show (exec (maskStep c) Driver.init ops).intrMask = intrMaskRxTx from hmask]
    decide
  · right
    rw [hwritten, show (exec (maskStep c) Driver.init ops).intrMask = intrMaskTimer from hmask]
    exact ⟨by decide, htimer⟩

/-- The link comes up, a packet goes out, and an interrupt that is none comes while the timer
runs. -/
def mitigatedRun : List MaskOp :=
  [.enable true 0 0, .interrupt linkChg 0 phyLinkStatus 0, .interrupt txOK 0 0 0, .interrupt 0 0 0 0]

/-- The mask has no `TxOK` by then, and the timer is set. -/
theorem tx_wakeUp_mitigatedRun :
    (exec (maskStep copperConfig) Driver.init mitigatedRun).chip.imr0 &&& txOK = 0 ∧
    ((exec (maskStep copperConfig) Driver.init mitigatedRun).chip.imr0 &&& txOK ≠ 0 ∨
    (exec (maskStep copperConfig) Driver.init mitigatedRun).chip.imr0 &&& pcsTimeout ≠ 0 ∧
      (exec (maskStep copperConfig) Driver.init mitigatedRun).chip.timerInt0 ≠ 0) :=
  ⟨by decide +kernel, tx_wakeUp copperConfig mitigatedRun (by decide +kernel) (by decide +kernel)⟩

end Rtl812x.Dext
