import Rtl812x.Dext.Mitigation

/-!
# The receive-size register and the MTU

RxMaxSize tells the chip how long a frame may be; on the newer chips its top bit also says that
VLAN frames are accepted.  `rtl812xHwConfig` writes it through `rtl8125_set_rms`, which adds or
clears that bit for the chip at hand.  `setMaxTransferUnit` writes the plain size while the
interface is enabled, and `rtl8125_hw_d3_para` the page size when it is disabled.

What a soft reset of the chip makes of the register is not known from the source: it is the parameter
`afterReset`.  Only the link-down path resets the chip without configuring it afterwards.

* `rtl8125SetRms`, `setMaxTransferUnit`, `sizeStep` — the functions and a step of a run;
* `SizeFollows` — while the interface is enabled, the register is what `rtl8125_set_rms` makes of the
  MTU accepted last;
* `KeepsSize` — the step does not write a plain size on a chip with the bit, and loses no link where
  a reset changes the register;
* `rxMaxSize_follows_iff` — **the register follows the MTU through a run exactly when every step is
  `KeepsSize`**; and changing the MTU of an enabled interface is the same as changing that of a
  disabled one, then enabled, exactly on the chips without the bit.
-/

namespace Rtl812x.Dext

open Runs

def ethZlen : ℕ := 60
def vlanEthHlen : ℕ := 18
def ethFcsLen : ℕ := 4
def kMaxMtu : ℕ := 9000
def acceppVlanPhys : UInt16 := 0x8000

/-- The chips whose RxMaxSize has the VLAN bit set. -/
def vlanPhys : Mcfg → Bool
  | .m8 | .m9 | .m10 | .m11 | .m12 | .m13 | .m31 | .m32 | .m33 | .m41 | .m42 => true
  | .m2 | .m3 | .m4 | .m5 | .m6 | .m7 => false

/-- The value `rtl8125_set_rms` writes to RxMaxSize. -/
def rtl8125SetRms (m : Mcfg) (rms : UInt16) : UInt16 :=
  if vlanPhys m then rms ||| acceppVlanPhys else rms &&& ~~~acceppVlanPhys

/-- The maximum receive size for an MTU. -/
def rmsOfMtu (mtu : ℕ) : UInt16 := (mtu + vlanEthHlen + ethFcsLen).toUInt16

/-- The MTUs `setMaxTransferUnit` does not refuse. -/
def MtuAccepted (mtu : ℕ) : Prop := ¬ (mtu < ethZlen ∨ mtu > kMaxMtu)

instance (mtu : ℕ) : Decidable (MtuAccepted mtu) := inferInstanceAs (Decidable (¬ _))

/-! ### The driver -/

/-- The driver, its maximum receive size, and the register. -/
structure SizedDriver where
  drv : Driver
  rms : UInt16
  rxMaxSize : UInt16

/-- Accept an MTU or refuse it. -/
def setMaxTransferUnit (mtu : ℕ) (s : SizedDriver) : Bool × SizedDriver :=
  if mtu < ethZlen ∨ mtu > kMaxMtu then (false, s)
  else (true,
    { drv := { s.drv with tx := { s.drv.tx with mtu := mtu } }
      rms := rmsOfMtu mtu
      rxMaxSize := if s.drv.interfaceEnabled then rmsOfMtu mtu else s.rxMaxSize })

section Functions

variable (c : Config) (pageSize : UInt16) (afterReset : UInt16 → UInt16)

/-- A link change, with what it does to the register: a link that is up configures the chip, one that
is lost only resets it. -/
def updateLinkSize (phy phy' : UInt32) (s : SizedDriver) : SizedDriver :=
  { s with
    drv := updateLinkStatus c phy phy' s.drv
    rxMaxSize :=
      if phyLinkUp phy then rtl8125SetRms c.mcfg s.rms
      else if s.drv.linkUp then
        if phyLinkUp phy' then s.rxMaxSize else afterReset s.rxMaxSize
      else s.rxMaxSize }

/-- Enabling configures the chip and looks at the link; disabling leaves the page size behind. -/
def setInterfaceEnableSize (on : Bool) (phy phy' : UInt32) (s : SizedDriver) : SizedDriver :=
  if on then
    let s := updateLinkSize c afterReset phy phy'
      { s with drv := startEngines c s.drv, rxMaxSize := rtl8125SetRms c.mcfg s.rms }
    { s with drv := { s.drv with tx := txRequestDequeueAll s.drv.tx } }
  else { s with drv := setInterfaceEnable c false phy phy' s.drv, rxMaxSize := pageSize }

inductive SizeOp where
  | setMaxTransferUnit (mtu : ℕ)
  | setInterfaceEnable (on : Bool) (phy phy' : UInt32)
  | link (phy phy' : UInt32)

/-- One step.  A link change is handled only while the interface is enabled. -/
def sizeCall (s : SizedDriver) : SizeOp → SizedDriver
  | .setMaxTransferUnit mtu => (setMaxTransferUnit mtu s).2
  | .setInterfaceEnable on phy phy' => setInterfaceEnableSize c pageSize afterReset on phy phy' s
  | .link phy phy' => if s.drv.interfaceEnabled then updateLinkSize c afterReset phy phy' s else s

/-- The driver beside the MTU that was accepted last. -/
structure SizeRun where
  sized : SizedDriver
  mtu : ℕ

def SizeRun.note (mtu : ℕ) : SizeOp → ℕ
  | .setMaxTransferUnit mtu' => if MtuAccepted mtu' then mtu' else mtu
  | _ => mtu

def sizeStep (s : SizeRun) (op : SizeOp) : SizeRun where
  sized := sizeCall c pageSize afterReset s.sized op
  mtu := SizeRun.note s.mtu op

end Functions

/-- The state after `Start`: the MTU of `init`, and a register that may hold anything. -/
def SizeRun.init (rxMaxSize : UInt16) : SizeRun where
  sized := ⟨Driver.init, rmsOfMtu 1500, rxMaxSize⟩
  mtu := 1500

/-- The driver beside the register is the driver. -/
theorem setInterfaceEnableSize_drv (c : Config) (pageSize : UInt16) (afterReset : UInt16 → UInt16)
    (on : Bool) (phy phy' : UInt32) (s : SizedDriver) :
    (setInterfaceEnableSize c pageSize afterReset on phy phy' s).drv =
      setInterfaceEnable c on phy phy' s.drv := by
  cases on <;> rfl

/-- **The register follows the MTU.** -/
def SizeFollows (m : Mcfg) (s : SizeRun) : Prop :=
  s.sized.drv.interfaceEnabled = true → s.sized.rxMaxSize = rtl8125SetRms m (rmsOfMtu s.mtu)

/-- A link that was up is gone at both readings. -/
def LinkLost (linkUp : Bool) (phy phy' : UInt32) : Prop :=
  linkUp = true ∧ phyLinkUp phy = false ∧ phyLinkUp phy' = false

/-- The step writes no plain size where the VLAN bit is needed, and loses no link of an enabled
interface where a reset changes the register. -/
def KeepsSize (c : Config) (afterReset : UInt16 → UInt16) (s : SizeRun) : SizeOp → Prop
  | .setMaxTransferUnit mtu =>
    MtuAccepted mtu → s.sized.drv.interfaceEnabled = true → vlanPhys c.mcfg = false
  | .setInterfaceEnable on phy phy' =>
    on = true → LinkLost s.sized.drv.linkUp phy phy' →
      afterReset (rtl8125SetRms c.mcfg (rmsOfMtu s.mtu)) = rtl8125SetRms c.mcfg (rmsOfMtu s.mtu)
  | .link phy phy' =>
    s.sized.drv.interfaceEnabled = true → LinkLost s.sized.drv.linkUp phy phy' →
      afterReset (rtl8125SetRms c.mcfg (rmsOfMtu s.mtu)) = rtl8125SetRms c.mcfg (rmsOfMtu s.mtu)

/-! ### The value of the register -/

/-- The size of an accepted MTU leaves the top bit free. -/
theorem rmsOfMtu_lt {mtu : ℕ} (h : MtuAccepted mtu) : (rmsOfMtu mtu).toNat < 2 ^ 15 := by
  simp only [MtuAccepted, ethZlen, kMaxMtu] at h
  simp only [rmsOfMtu, vlanEthHlen, ethFcsLen, Nat.toUInt16, UInt16.toNat_ofNat']
  omega

theorem or_acceppVlanPhys_ne {rms : UInt16} (h : rms.toNat < 2 ^ 15) : rms ||| acceppVlanPhys ≠ rms := by
  intro heq
  have hbit : (rms ||| acceppVlanPhys).toNat.testBit 15 = true := by
    rw [UInt16.toNat_or, Nat.testBit_or, show acceppVlanPhys.toNat.testBit 15 = true by decide,
      Bool.or_true]
  rw [heq, Nat.testBit_lt_two_pow h] at hbit
  cases hbit

theorem and_not_acceppVlanPhys {rms : UInt16} (h : rms.toNat < 2 ^ 15) :
    rms &&& ~~~acceppVlanPhys = rms := by
  apply UInt16.toNat_inj.mp
  rw [UInt16.toNat_and, show (~~~acceppVlanPhys).toNat = 2 ^ 15 - 1 by decide,
    Nat.and_two_pow_sub_one_eq_mod, Nat.mod_eq_of_lt h]

/-- The plain size is what the chip needs exactly on the chips without the VLAN bit. -/
theorem rmsOfMtu_eq_rtl8125SetRms_iff {mtu : ℕ} (h : MtuAccepted mtu) (m : Mcfg) :
    rmsOfMtu mtu = rtl8125SetRms m (rmsOfMtu mtu) ↔ vlanPhys m = false := by
  have hlt := rmsOfMtu_lt h
  cases hm : vlanPhys m with
  | true =>
      simp only [rtl8125SetRms, hm, if_true, Bool.true_eq_false, iff_false]
      exact fun heq => or_acceppVlanPhys_ne hlt heq.symm
  | false =>
      simp only [rtl8125SetRms, hm, Bool.false_eq_true, if_false, iff_true]
      exact (and_not_acceppVlanPhys hlt).symm

/-! ### One step -/

section Steps

variable {c : Config} {pageSize : UInt16} {afterReset : UInt16 → UInt16} {s : SizeRun}

theorem setMaxTransferUnit_of_accepted {mtu : ℕ} (h : MtuAccepted mtu) (s : SizedDriver) :
    (setMaxTransferUnit mtu s).2 =
      { drv := { s.drv with tx := { s.drv.tx with mtu := mtu } }
        rms := rmsOfMtu mtu
        rxMaxSize := if s.drv.interfaceEnabled then rmsOfMtu mtu else s.rxMaxSize } := by
  rw [setMaxTransferUnit, if_neg h]

theorem setMaxTransferUnit_of_refused {mtu : ℕ} (h : ¬ MtuAccepted mtu) (s : SizedDriver) :
    (setMaxTransferUnit mtu s).2 = s := by
  rw [setMaxTransferUnit, if_pos (not_not.mp h)]

theorem startEngines_linkUp (c : Config) (d : Driver) : (startEngines c d).linkUp = d.linkUp := by
  simp [startEngines, armRing, writeImr0, rtl812xEnable, rtl812xHwConfig, writeTimerInt0, hwReset,
    nicReset]

/-- What a link change leaves in a register that is right. -/
theorem updateLinkSize_rxMaxSize_iff (c : Config) (afterReset : UInt16 → UInt16) {sd : SizedDriver}
    (phy phy' : UInt32) (hreg : sd.rxMaxSize = rtl8125SetRms c.mcfg sd.rms) :
    (updateLinkSize c afterReset phy phy' sd).rxMaxSize = rtl8125SetRms c.mcfg sd.rms ↔
      (LinkLost sd.drv.linkUp phy phy' →
        afterReset (rtl8125SetRms c.mcfg sd.rms) = rtl8125SetRms c.mcfg sd.rms) := by
  simp only [updateLinkSize, LinkLost, hreg]
  cases phyLinkUp phy with
  | true => simp
  | false =>
      cases sd.drv.linkUp with
      | false => simp
      | true => cases phyLinkUp phy' <;> simp

/-- The driver's size is that of the MTU accepted last, and the register follows it. -/
structure SizeInv (m : Mcfg) (s : SizeRun) : Prop where
  rms : s.sized.rms = rmsOfMtu s.mtu
  follows : SizeFollows m s

theorem SizeInv.setMaxTransferUnit_iff (h : SizeInv c.mcfg s) (mtu : ℕ) :
    SizeFollows c.mcfg (sizeStep c pageSize afterReset s (.setMaxTransferUnit mtu)) ↔
      KeepsSize c afterReset s (.setMaxTransferUnit mtu) := by
  by_cases hacc : MtuAccepted mtu
  · simp only [SizeFollows, sizeStep, sizeCall, setMaxTransferUnit_of_accepted hacc, SizeRun.note,
      KeepsSize, hacc, true_implies]
    refine forall_congr' fun hon => ?_
    rw [if_pos hon]
    exact rmsOfMtu_eq_rtl8125SetRms_iff hacc c.mcfg
  · simp only [SizeFollows, sizeStep, sizeCall, setMaxTransferUnit_of_refused hacc, SizeRun.note,
      KeepsSize, hacc, false_implies, iff_true]
    exact h.follows

theorem sizeStep_disable_interfaceEnabled (s : SizeRun) (phy phy' : UInt32) :
    (sizeStep c pageSize afterReset s (.setInterfaceEnable false phy phy')).sized.drv.interfaceEnabled
      = false := by
  simp [sizeStep, sizeCall, setInterfaceEnableSize, setInterfaceEnable, rtl812xDisable, writeImr0]

theorem sizeStep_enable_interfaceEnabled (s : SizeRun) (phy phy' : UInt32) :
    (sizeStep c pageSize afterReset s (.setInterfaceEnable true phy phy')).sized.drv.interfaceEnabled
      = true := by
  show (updateLinkStatus c phy phy' (startEngines c s.sized.drv)).interfaceEnabled = true
  rw [updateLinkStatus_interfaceEnabled, startEngines_interfaceEnabled]

/-- Enabling puts the right size in the register, unless the link is lost and the reset changes it. -/
theorem sizeStep_enable_rxMaxSize_iff (c : Config) (pageSize : UInt16) (afterReset : UInt16 → UInt16)
    (s : SizeRun) (phy phy' : UInt32) :
    (sizeStep c pageSize afterReset s (.setInterfaceEnable true phy phy')).sized.rxMaxSize =
        rtl8125SetRms c.mcfg s.sized.rms ↔
      (LinkLost s.sized.drv.linkUp phy phy' →
        afterReset (rtl8125SetRms c.mcfg s.sized.rms) = rtl8125SetRms c.mcfg s.sized.rms) := by
  have hconfigured : (SizedDriver.mk (startEngines c s.sized.drv) s.sized.rms
      (rtl8125SetRms c.mcfg s.sized.rms)).rxMaxSize = rtl8125SetRms c.mcfg s.sized.rms := rfl
  have hreg := updateLinkSize_rxMaxSize_iff c afterReset phy phy' hconfigured
  rw [startEngines_linkUp] at hreg
  exact hreg

theorem SizeInv.setInterfaceEnable_iff (h : SizeInv c.mcfg s) (on : Bool) (phy phy' : UInt32) :
    SizeFollows c.mcfg (sizeStep c pageSize afterReset s (.setInterfaceEnable on phy phy')) ↔
      KeepsSize c afterReset s (.setInterfaceEnable on phy phy') := by
  cases on with
  | false =>
      refine iff_of_true (fun hon => ?_) (fun hon => by cases hon)
      rw [sizeStep_disable_interfaceEnabled] at hon
      cases hon
  | true =>
      have hreg := sizeStep_enable_rxMaxSize_iff c pageSize afterReset s phy phy'
      rw [h.rms] at hreg
      simp only [SizeFollows, sizeStep_enable_interfaceEnabled, true_implies, KeepsSize]
      exact hreg

theorem SizeInv.link_iff (h : SizeInv c.mcfg s) (phy phy' : UInt32) :
    SizeFollows c.mcfg (sizeStep c pageSize afterReset s (.link phy phy')) ↔
      KeepsSize c afterReset s (.link phy phy') := by
  by_cases hon : s.sized.drv.interfaceEnabled = true
  · have hright : s.sized.rxMaxSize = rtl8125SetRms c.mcfg s.sized.rms := by
      rw [h.rms]
      exact h.follows hon
    have hreg := updateLinkSize_rxMaxSize_iff c afterReset phy phy' hright
    rw [h.rms] at hreg
    have hkeep : (updateLinkSize c afterReset phy phy' s.sized).drv.interfaceEnabled = true :=
      (updateLinkStatus_interfaceEnabled c phy phy' s.sized.drv).trans hon
    simp only [SizeFollows, sizeStep, sizeCall, hon, if_true, hkeep, SizeRun.note, KeepsSize,
      true_implies]
    exact hreg
  · refine iff_of_true (fun hkeep => ?_) (fun hkeep => absurd hkeep hon)
    simp only [sizeStep, sizeCall, if_neg hon] at hkeep
    exact absurd hkeep hon

/-- **A step follows the MTU exactly if it is `KeepsSize`.** -/
theorem SizeInv.follows_iff (h : SizeInv c.mcfg s) (op : SizeOp) :
    SizeFollows c.mcfg (sizeStep c pageSize afterReset s op) ↔ KeepsSize c afterReset s op := by
  cases op with
  | setMaxTransferUnit mtu => exact h.setMaxTransferUnit_iff mtu
  | setInterfaceEnable on phy phy' => exact h.setInterfaceEnable_iff on phy phy'
  | link phy phy' => exact h.link_iff phy phy'

theorem SizeInv.step (h : SizeInv c.mcfg s) (op : SizeOp)
    (hf : SizeFollows c.mcfg (sizeStep c pageSize afterReset s op)) :
    SizeInv c.mcfg (sizeStep c pageSize afterReset s op) := by
  refine ⟨?_, hf⟩
  cases op with
  | setMaxTransferUnit mtu =>
      by_cases hacc : MtuAccepted mtu
      · simp only [sizeStep, sizeCall, setMaxTransferUnit_of_accepted hacc, SizeRun.note, if_pos hacc]
      · simp only [sizeStep, sizeCall, setMaxTransferUnit_of_refused hacc, SizeRun.note, if_neg hacc]
        exact h.rms
  | setInterfaceEnable on phy phy' => cases on <;> exact h.rms
  | link phy phy' =>
      simp only [sizeStep, sizeCall]
      split <;> exact h.rms

end Steps

/-! ### Runs -/

theorem SizeInv.init (m : Mcfg) (rxMaxSize : UInt16) : SizeInv m (SizeRun.init rxMaxSize) where
  rms := rfl
  follows := fun hon => by cases hon

/-- Disable, change the MTU, enable again. -/
def mtuWhileDisabled (mtu : ℕ) (phy phy' : UInt32) : List SizeOp :=
  [.setInterfaceEnable false phy phy', .setMaxTransferUnit mtu, .setInterfaceEnable true phy phy']

/-- Changing the MTU while disabled leaves what `rtl8125_set_rms` makes of it. -/
theorem mtuWhileDisabled_rxMaxSize (c : Config) (pageSize : UInt16) (afterReset : UInt16 → UInt16)
    (s : SizeRun) {mtu : ℕ} (hacc : MtuAccepted mtu) (phy phy' : UInt32) :
    (exec (sizeStep c pageSize afterReset) s (mtuWhileDisabled mtu phy phy')).sized.rxMaxSize =
      rtl8125SetRms c.mcfg (rmsOfMtu mtu) := by
  have hrun : exec (sizeStep c pageSize afterReset) s (mtuWhileDisabled mtu phy phy') =
      sizeStep c pageSize afterReset (sizeStep c pageSize afterReset
        (sizeStep c pageSize afterReset s (.setInterfaceEnable false phy phy')) (.setMaxTransferUnit mtu))
        (.setInterfaceEnable true phy phy') := rfl
  rw [hrun]
  generalize hs : sizeStep c pageSize afterReset
    (sizeStep c pageSize afterReset s (.setInterfaceEnable false phy phy')) (.setMaxTransferUnit mtu) = s'
  have hrms : s'.sized.rms = rmsOfMtu mtu := by
    rw [← hs]
    simp only [sizeStep, sizeCall, setMaxTransferUnit_of_accepted hacc]
  have hdown : s'.sized.drv.linkUp = false := by
    rw [← hs]
    simp [sizeStep, sizeCall, setMaxTransferUnit_of_accepted hacc, setInterfaceEnableSize,
      setInterfaceEnable, rtl812xDisable, writeImr0, hwReset, writeTimerInt0, nicReset]
  rw [← hrms, sizeStep_enable_rxMaxSize_iff]
  rintro ⟨hup, -⟩
  rw [hdown] at hup
  cases hup

/-- **The receive-size register follows the MTU** after every step of a run exactly when every step of
the run is `KeepsSize`.  In whatever state a run leaves an enabled interface, changing the MTU there and
changing it while disabled lead to the same register exactly on a chip without the VLAN bit. -/
theorem rxMaxSize_follows_iff (c : Config) (pageSize rxMaxSize : UInt16) (afterReset : UInt16 → UInt16)
    (ops : List SizeOp) :
    (Along (sizeStep c pageSize afterReset)
        (fun s op => SizeFollows c.mcfg (sizeStep c pageSize afterReset s op))
        (SizeRun.init rxMaxSize) ops ↔
      Along (sizeStep c pageSize afterReset) (KeepsSize c afterReset) (SizeRun.init rxMaxSize) ops) ∧
    let s := exec (sizeStep c pageSize afterReset) (SizeRun.init rxMaxSize) ops
    ∀ mtu phy phy', MtuAccepted mtu → s.sized.drv.interfaceEnabled = true →
      ((sizeStep c pageSize afterReset s (.setMaxTransferUnit mtu)).sized.rxMaxSize =
          (exec (sizeStep c pageSize afterReset) s (mtuWhileDisabled mtu phy phy')).sized.rxMaxSize ↔
        vlanPhys c.mcfg = false) := by
  constructor
  · exact along_congr (fun _ op h => h.follows_iff op) (fun _ op h => h.step op)
      (SizeInv.init c.mcfg rxMaxSize)
  · intro s mtu phy phy' hacc hon
    rw [mtuWhileDisabled_rxMaxSize c pageSize afterReset s hacc phy phy',
      ← rmsOfMtu_eq_rtl8125SetRms_iff hacc c.mcfg]
    have hplain : (sizeStep c pageSize afterReset s (.setMaxTransferUnit mtu)).sized.rxMaxSize =
        rmsOfMtu mtu := by
      simp only [sizeStep, sizeCall, setMaxTransferUnit_of_accepted hacc, hon, if_true]
    rw [hplain]

/-- An RTL8127 is enabled with the link up, and gets an MTU of 9000. -/
def jumboRun : List SizeOp := [.setInterfaceEnable true phy10G phy10G, .setMaxTransferUnit 9000]

/-- The register holds 9022 and not 0xa33e, which a chip configured for that MTU has. -/
theorem jumboRun_not_follows :
    let s := exec (sizeStep copperConfig 4096 id) (SizeRun.init 0) jumboRun
    s.sized.drv.interfaceEnabled = true ∧ s.mtu = 9000 ∧ s.sized.rxMaxSize = 9022 ∧
      rtl8125SetRms .m41 (rmsOfMtu 9000) = 0xa33e ∧ ¬ SizeFollows .m41 s ∧
      (exec (sizeStep copperConfig 4096 id) s (mtuWhileDisabled 9000 phy10G phy10G)).sized.rxMaxSize
        = 0xa33e := by
  intro s
  have hon : s.sized.drv.interfaceEnabled = true := by decide +kernel
  have hreg : s.sized.rxMaxSize = 9022 := by decide +kernel
  refine ⟨hon, rfl, hreg, by decide, fun h => ?_, ?_⟩
  · have hright := h hon
    rw [hreg] at hright
    exact absurd hright (by decide +kernel)
  · rw [mtuWhileDisabled_rxMaxSize _ _ _ _ (by decide)]
    decide

end Rtl812x.Dext
