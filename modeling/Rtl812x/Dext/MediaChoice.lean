import Rtl812x.Dext.RxRun
import Rtl812x.Hw.PhyMedium
import Rtl812x.Lib.Runs

/-!
# The media the user chose

`handleChosenMedia` passes the speed of the chosen media to `rtl812xSetPhyMedium` if the interface is
enabled; `rtl812xEnable` and a confirmed loss of the link program the PHY again from the stored link
options.  On a copper chip the call advertises the modes in its mask, which is the stored one every
time; on a fibre chip it sets the SerDes to the speed and stores it.

The driver of `Dext.Driver` is run beside the link options.  The history of a run — is the interface
enabled, what was chosen last, what was chosen last while it was enabled — depends on the calls only.

* `handleChosenMedia`, `updateLinkMedia`, `setInterfaceEnableMedia`, `mediaStep`;
* `ServesMedia` — what is programmed is what the media stands for; `Applied` — and it is, while the
  interface is enabled;
* `mediaInv_exec` — **what is programmed in every state**;
* `chosenMedia_applied_iff` — **in which states the chosen media is applied**.
-/

namespace Rtl812x.Dext

open Runs

/-! ### Media -/

/-- A media word: automatic, or a type with or without option bits.  The driver offers types without. -/
inductive ChosenMedia where
  | auto
  | fixed (t : MediaType) (options : Bool)
deriving DecidableEq, Repr

/-- The speed a media type is named after. -/
def MediaType.speed : MediaType → ℕ
  | .ethernet10GBaseSR | .ethernet10GBaseT => 10000
  | .ethernet5000BaseT => 5000
  | .ethernet2500BaseT => 2500
  | .ethernet1000BaseSX | .ethernet1000BaseT => 1000
  | .ethernet100BaseTX => 100
  | .ethernet10BaseT => 10

/-- The switch in `handleChosenMedia`. -/
def chosenSpeed : ChosenMedia → ℕ
  | .fixed .ethernet10GBaseSR false | .fixed .ethernet10GBaseT false => 10000
  | .fixed .ethernet1000BaseSX false | .fixed .ethernet1000BaseT false => 1000
  | .fixed .ethernet5000BaseT false => 5000
  | .fixed .ethernet2500BaseT false => 2500
  | _ => 10000

/-! ### The driver and its link options -/

/-- The driver, its link options, and what was programmed last. -/
structure MediaDriver where
  drv : Driver
  tp : LinkOption
  programmed : Option Programmed

section Functions

variable (c : Config) (cfg : PhyConfig)

def rtl812xSetPhyMedium (regs : PhyRegs) (autoneg : Bool) (speed : ℕ) (duplex : Duplex) (adv : BitVec 64)
    (tp : LinkOption) : LinkOption × PhyCall :=
  setPhyMedium cfg (tp.eeeEnabled && autoneg && !cfg.fiberMode) regs autoneg speed duplex adv tp

/-- The state after `Start`. -/
def MediaDriver.init : MediaDriver where
  drv := Driver.init
  tp := { setLinkOption cfg.mcfg true (hwSuppMaxPhyLinkSpeed cfg.mcfg) .full .none
            ⟨false, 0, .half, 0, .none, false⟩ with
          eeeEnabled := false }
  programmed := none

/-- A call of `rtl812xSetPhyMedium`. -/
def program (regs : PhyRegs) (autoneg : Bool) (speed : ℕ) (duplex : Duplex) (s : MediaDriver) :
    MediaDriver :=
  let p := rtl812xSetPhyMedium cfg regs autoneg speed duplex s.tp.advertising s.tp
  { s with tp := p.1, programmed := some p.2.programmed }

/-- A call with the stored link options. -/
def reprogram (regs : PhyRegs) (s : MediaDriver) : MediaDriver :=
  program cfg regs s.tp.autoneg s.tp.speed s.tp.duplex s

def handleChosenMedia (m : ChosenMedia) (regs : PhyRegs) (s : MediaDriver) : MediaDriver :=
  if s.drv.interfaceEnabled then program cfg regs true (chosenSpeed m) .full s else s

/-- `updateLinkStatus`: the PHY is programmed again if the link was up and is found down twice. -/
def updateLinkMedia (phy phy' : UInt32) (regs : PhyRegs) (s : MediaDriver) : MediaDriver :=
  let lost := !phyLinkUp phy && s.drv.linkUp && !phyLinkUp phy'
  let s := { s with drv := updateLinkStatus c phy phy' s.drv }
  if lost then reprogram cfg regs s else s

/-- `setInterfaceEnable`; `rtl812xEnable` programs the PHY before the link is looked at. -/
def setInterfaceEnableMedia (on : Bool) (phy phy' : UInt32) (regs regs' : PhyRegs) (s : MediaDriver) :
    MediaDriver :=
  if on then
    let s := updateLinkMedia c cfg phy phy' regs'
      { reprogram cfg regs s with drv := startEngines c s.drv }
    { s with drv := { s.drv with tx := txRequestDequeueAll s.drv.tx } }
  else { s with drv := setInterfaceEnable c false phy phy' s.drv }

inductive MediaOp where
  | choose (m : ChosenMedia) (regs : PhyRegs)
  | enable (on : Bool) (phy phy' : UInt32) (regs regs' : PhyRegs)
  | link (phy phy' : UInt32) (regs : PhyRegs)

/-- One step.  A link change is handled only while the interface is enabled. -/
def mediaStep (s : MediaDriver) : MediaOp → MediaDriver
  | .choose m regs => handleChosenMedia cfg m regs s
  | .enable on phy phy' regs regs' => setInterfaceEnableMedia c cfg on phy phy' regs regs' s
  | .link phy phy' regs => if s.drv.interfaceEnabled then updateLinkMedia c cfg phy phy' regs s else s

end Functions

/-- The driver beside the link options is the driver. -/
theorem setInterfaceEnableMedia_drv (c : Config) (cfg : PhyConfig) (on : Bool) (phy phy' : UInt32)
    (regs regs' : PhyRegs) (s : MediaDriver) :
    (setInterfaceEnableMedia c cfg on phy phy' regs regs' s).drv =
      setInterfaceEnable c on phy phy' s.drv := by
  cases on with
  | false => rfl
  | true =>
      simp only [setInterfaceEnableMedia, setInterfaceEnable, updateLinkMedia, if_true]
      split <;> rfl

/-! ### What was asked for -/

/-- Whether the interface is enabled, the media chosen last, and the one chosen last while it was. -/
structure History where
  enabled : Bool
  chosen : ChosenMedia
  inForce : ChosenMedia
deriving DecidableEq, Repr

def History.init : History := ⟨false, .auto, .auto⟩

def History.step (h : History) : MediaOp → History
  | .choose m _ => { h with chosen := m, inForce := if h.enabled then m else h.inForce }
  | .enable on _ _ _ _ => { h with enabled := on }
  | .link _ _ _ => h

/-- The speed of a fixed media; automatic stands for the highest. -/
def ChosenMedia.speed : ChosenMedia → ℕ
  | .auto => 10000
  | .fixed t _ => t.speed

/-- One of the two media of 1000 Mbit/s, without options. -/
def ChosenMedia.gigabit : ChosenMedia → Bool
  | .fixed .ethernet1000BaseSX false | .fixed .ethernet1000BaseT false => true
  | _ => false

/-- What is programmed is what the media stands for: on a fibre chip its speed, on a copper chip the set
with its speed only, or all the speeds of the chip. -/
def ServesMedia (cfg : PhyConfig) (m : ChosenMedia) (p : Programmed) : Prop :=
  if cfg.fiberMode then p = .fiber m.speed
  else match m with
    | .auto => p.speeds = chipSpeeds cfg.mcfg
    | .fixed t _ => p.speeds = [t.speed]

/-- While the interface is enabled, what was programmed last serves the media chosen last. -/
def Applied (cfg : PhyConfig) (h : History) (s : MediaDriver) : Prop :=
  h.enabled = true → ∃ p, s.programmed = some p ∧ ServesMedia cfg h.chosen p

/-! ### What is programmed -/

/-- The speed the SerDes is set to for a media. -/
def serdesSpeed (m : ChosenMedia) : ℕ := if m.gigabit then 1000 else 10000

theorem fiberSpeed_chosenSpeed (mcfg : Mcfg) (m : ChosenMedia) :
    fiberSpeed (resolveSpeed mcfg (chosenSpeed m)) = serdesSpeed m := by
  cases m with
  | auto => rfl
  | fixed t options => cases t <;> cases options <;> rfl

/-- What is programmed while `m` is in force. -/
def Programs (cfg : PhyConfig) (m : ChosenMedia) (p : Programmed) : Prop :=
  if cfg.fiberMode then p = .fiber (serdesSpeed m) else p.speeds = chipSpeeds cfg.mcfg

/-- The link options while `m` is in force. -/
structure MediaInForce (cfg : PhyConfig) (m : ChosenMedia) (tp : LinkOption) : Prop where
  autoneg : tp.autoneg = true
  adv : tp.advertising = linkOptionAdv (hwSuppMaxPhyLinkSpeed cfg.mcfg)
  fiber : cfg.fiberMode = true → fiberSpeed (resolveSpeed cfg.mcfg tp.speed) = serdesSpeed m

structure MediaInv (cfg : PhyConfig) (h : History) (s : MediaDriver) : Prop where
  enabled : s.drv.interfaceEnabled = h.enabled
  inForce : MediaInForce cfg h.inForce s.tp
  programmed : h.enabled = true → ∃ p, s.programmed = some p ∧ Programs cfg h.inForce p

section Steps

variable {c : Config} {cfg : PhyConfig} {m m' : ChosenMedia} {h : History} {s : MediaDriver}

/-- **A call with a speed that the SerDes takes for `m'`** puts `m'` in force. -/
theorem program_inForce (hf : MediaInForce cfg m s.tp) (regs : PhyRegs) (duplex : Duplex) {speed : ℕ}
    (hspeed : cfg.fiberMode = true → fiberSpeed (resolveSpeed cfg.mcfg speed) = serdesSpeed m') :
    MediaInForce cfg m' (program cfg regs true speed duplex s).tp ∧
      ∃ p, (program cfg regs true speed duplex s).programmed = some p ∧ Programs cfg m' p := by
  have htp : (program cfg regs true speed duplex s).tp = { s.tp with
      autoneg := true
      speed := (settle cfg speed duplex).1
      duplex := (settle cfg speed duplex).2 } := setPhyMedium_stored cfg _ regs speed duplex s.tp
  refine ⟨?_, _, rfl, ?_⟩
  · rw [htp]
    refine ⟨rfl, hf.adv, fun hfiber => ?_⟩
    rw [← hspeed hfiber, settle, if_pos hfiber, resolveSpeed_of_valid (speedModeValid_fiberSpeed _),
      fiberSpeed_fiberSpeed]
  · unfold Programs rtl812xSetPhyMedium
    cases hfiber : cfg.fiberMode with
    | true => rw [if_pos rfl, setPhyMedium_fiber hfiber, hspeed hfiber]
    | false =>
        rw [if_neg Bool.false_ne_true, setPhyMedium_copper hfiber, nway_speeds, hf.adv,
          maskSpeeds_linkOptionAdv]

theorem reprogram_inForce (hf : MediaInForce cfg m s.tp) (regs : PhyRegs) :
    MediaInForce cfg m (reprogram cfg regs s).tp ∧
      ∃ p, (reprogram cfg regs s).programmed = some p ∧ Programs cfg m p := by
  rw [reprogram, hf.autoneg]
  exact program_inForce hf regs s.tp.duplex hf.fiber

theorem updateLinkMedia_inv (hi : MediaInv cfg h s) (phy phy' : UInt32) (regs : PhyRegs) :
    MediaInv cfg h (updateLinkMedia c cfg phy phy' regs s) := by
  have hen : (updateLinkStatus c phy phy' s.drv).interfaceEnabled = h.enabled :=
    (updateLinkStatus_interfaceEnabled c phy phy' s.drv).trans hi.enabled
  simp only [updateLinkMedia]
  split
  · have hre := reprogram_inForce (s := { s with drv := updateLinkStatus c phy phy' s.drv }) hi.inForce regs
    exact ⟨hen, hre.1, fun _ => hre.2⟩
  · exact ⟨hen, hi.inForce, hi.programmed⟩

theorem setInterfaceEnableMedia_inv (hi : MediaInv cfg h s) (on : Bool) (phy phy' : UInt32)
    (regs regs' : PhyRegs) : MediaInv cfg { h with enabled := on }
      (setInterfaceEnableMedia c cfg on phy phy' regs regs' s) := by
  cases on with
  | false =>
      refine ⟨?_, hi.inForce, fun hon => absurd hon Bool.false_ne_true⟩
      simp [setInterfaceEnableMedia, setInterfaceEnable, rtl812xDisable, writeImr0]
  | true =>
      have hre := reprogram_inForce hi.inForce regs
      have hstarted : MediaInv cfg { h with enabled := true }
          { reprogram cfg regs s with drv := startEngines c s.drv } :=
        ⟨startEngines_interfaceEnabled c s.drv, hre.1, fun _ => hre.2⟩
      have hlink := updateLinkMedia_inv (c := c) hstarted phy phy' regs'
      exact ⟨hlink.enabled, hlink.inForce, hlink.programmed⟩

theorem handleChosenMedia_inv (hi : MediaInv cfg h s) (m : ChosenMedia) (regs : PhyRegs) :
    MediaInv cfg (h.step (.choose m regs)) (handleChosenMedia cfg m regs s) := by
  unfold handleChosenMedia
  rw [hi.enabled]
  cases hen : h.enabled with
  | true =>
      have hspeed := fiberSpeed_chosenSpeed cfg.mcfg m
      have hprog := program_inForce hi.inForce regs .full fun _ => hspeed
      refine ⟨hi.enabled, ?_, fun _ => ?_⟩
      · simpa only [History.step, hen, if_true] using hprog.1
      · simpa only [History.step, hen, if_true] using hprog.2
  | false =>
      refine ⟨hi.enabled, ?_, fun hon => ?_⟩
      · simpa [History.step, hen] using hi.inForce
      · rw [History.step, hen] at hon
        cases hon

theorem mediaStep_inv (hi : MediaInv cfg h s) (op : MediaOp) :
    MediaInv cfg (h.step op) (mediaStep c cfg s op) := by
  cases op with
  | choose m regs => exact handleChosenMedia_inv hi m regs
  | enable on phy phy' regs regs' => exact setInterfaceEnableMedia_inv hi on phy phy' regs regs'
  | link phy phy' regs =>
      simp only [mediaStep]
      split
      · exact updateLinkMedia_inv hi phy phy' regs
      · exact hi

theorem mediaInv_init (cfg : PhyConfig) : MediaInv cfg .init (.init cfg) := by
  refine ⟨rfl, ⟨rfl, ?_, fun hfiber => ?_⟩, fun hon => absurd hon Bool.false_ne_true⟩
  · cases cfg with
    | mk mcfg d006 => cases mcfg <;> rfl
  · -- only one chip has fibre
    have hm : cfg.mcfg = .m42 := by
      simp only [PhyConfig.fiberMode, Bool.and_eq_true, decide_eq_true_eq] at hfiber
      exact hfiber.1
    rw [MediaDriver.init, hm]
    rfl

/-- **What is programmed in every state** of every run. -/
theorem mediaInv_exec (hi : MediaInv cfg h s) (ops : List MediaOp) :
    MediaInv cfg (exec History.step h ops) (exec (mediaStep c cfg) s ops) := by
  induction ops generalizing h s with
  | nil => exact hi
  | cons op ops ih => exact ih (mediaStep_inv hi op)

end Steps

/-! ### When the chosen media is applied -/

/-- On a copper chip only the automatic media is served.  On a fibre chip a media of 1000 Mbit/s is, if
the last choice made while the interface was enabled is one without options; and automatic or 10 Gbit/s
is, if that choice is none. -/
def ServedChoice (cfg : PhyConfig) (h : History) : Prop :=
  h.enabled = true →
    if cfg.fiberMode then
      (h.chosen.speed = 1000 ∧ h.inForce.gigabit = true) ∨
        (h.chosen.speed = 10000 ∧ h.inForce.gigabit = false)
    else h.chosen = .auto

theorem chipSpeeds_ne_singleton (mcfg : Mcfg) (speed : ℕ) : chipSpeeds mcfg ≠ [speed] := by
  intro h
  have hlen : (chipSpeeds mcfg).length = 1 := congrArg List.length h
  revert hlen
  cases mcfg <;> decide

theorem serves_fiber_iff (m m' : ChosenMedia) : serdesSpeed m = m'.speed ↔
    (m'.speed = 1000 ∧ m.gigabit = true) ∨ (m'.speed = 10000 ∧ m.gigabit = false) := by
  unfold serdesSpeed
  cases m.gigabit <;> simp [eq_comm]

theorem serves_iff {cfg : PhyConfig} {m m' : ChosenMedia} {p : Programmed} (hp : Programs cfg m p) :
    ServesMedia cfg m' p ↔
      if cfg.fiberMode then
        (m'.speed = 1000 ∧ m.gigabit = true) ∨ (m'.speed = 10000 ∧ m.gigabit = false)
      else m' = .auto := by
  unfold ServesMedia
  unfold Programs at hp
  cases hfiber : cfg.fiberMode with
  | true =>
      rw [hfiber, if_pos rfl] at hp
      rw [if_pos rfl, if_pos rfl, hp, Programmed.fiber.injEq, serves_fiber_iff]
  | false =>
      rw [hfiber, if_neg Bool.false_ne_true] at hp
      rw [if_neg Bool.false_ne_true, if_neg Bool.false_ne_true]
      cases m' with
      | auto => exact iff_of_true hp rfl
      | fixed t options =>
          refine iff_of_false (fun hs => ?_) fun hs => by cases hs
          exact chipSpeeds_ne_singleton _ _ (hp.symm.trans hs)

/-- **In which states the chosen media is applied**, for every chip, in copper and in fibre mode, after
every sequence of choices, enables and disables and link changes. -/
theorem chosenMedia_applied_iff (c : Config) (d006 : BitVec 8) (ops : List MediaOp) :
    Applied ⟨c.mcfg, d006⟩ (exec History.step .init ops)
      (exec (mediaStep c ⟨c.mcfg, d006⟩) (.init ⟨c.mcfg, d006⟩) ops) ↔
    ServedChoice ⟨c.mcfg, d006⟩ (exec History.step .init ops) := by
  have hinv := mediaInv_exec (c := c) (mediaInv_init ⟨c.mcfg, d006⟩) ops
  refine forall_congr' fun hon => ?_
  obtain ⟨p, hp, hprog⟩ := hinv.programmed hon
  rw [← serves_iff hprog]
  constructor
  · rintro ⟨p', hp', hserves⟩
    rw [hp, Option.some.injEq] at hp'
    rwa [hp']
  · exact fun hserves => ⟨p, hp, hserves⟩

def fiberConfig : Config := { shortPoolConfig with mcfg := .m42, fiberMode := true }

/-- The interface is enabled while the link is down. -/
def enableMedia : MediaOp := .enable true 0 0 ⟨0, 0, 0⟩ ⟨0, 0, 0⟩

/-- **Two choices that are not applied**: 1000BASE-T chosen on a copper chip leaves every speed
advertised; 1000BASE-SX chosen on a fibre chip before the interface is enabled leaves the SerDes at
10 Gbit/s. -/
theorem chosenMedia_not_applied :
    (∃ p, (exec (mediaStep shortPoolConfig ⟨.m41, 0⟩) (.init ⟨.m41, 0⟩)
        [enableMedia, .choose (.fixed .ethernet1000BaseT false) ⟨0, 0, 0⟩]).programmed = some p ∧
      p.speeds = [10, 100, 1000, 2500, 5000, 10000] ∧
      ¬ServesMedia ⟨.m41, 0⟩ (.fixed .ethernet1000BaseT false) p) ∧
    (exec (mediaStep fiberConfig ⟨.m42, 7⟩) (.init ⟨.m42, 7⟩)
      [.choose (.fixed .ethernet1000BaseSX false) ⟨0, 0, 0⟩, enableMedia]).programmed = some (.fiber 10000) ∧
    ¬ServesMedia ⟨.m42, 7⟩ (.fixed .ethernet1000BaseSX false) (.fiber 10000) := by
  refine ⟨?_, ?_, ?_⟩
  · have hinv := mediaInv_exec (c := shortPoolConfig) (mediaInv_init ⟨.m41, 0⟩)
      [enableMedia, .choose (.fixed .ethernet1000BaseT false) ⟨0, 0, 0⟩]
    obtain ⟨p, hp, hprog⟩ := hinv.programmed rfl
    refine ⟨p, hp, hprog, fun hs => ?_⟩
    have := (serves_iff hprog).mp hs
    cases this
  · have hinv := mediaInv_exec (c := fiberConfig) (mediaInv_init ⟨.m42, 7⟩)
      [.choose (.fixed .ethernet1000BaseSX false) ⟨0, 0, 0⟩, enableMedia]
    obtain ⟨p, hp, hprog⟩ := hinv.programmed rfl
    have hfiber : p = .fiber 10000 := hprog
    rw [hp, hfiber]
  · intro hs
    have : Programmed.fiber 10000 = .fiber 1000 := hs
    cases this

end Rtl812x.Dext
