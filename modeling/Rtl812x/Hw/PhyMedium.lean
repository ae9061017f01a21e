import Mathlib.Data.BitVec
import Rtl812x.Hw.Regs

/-!
# Programming the PHY

`rtl812xSetPhyMedium` is the same in both drivers but for the condition under which it enables EEE: it
resolves a speed that stands for "automatic", and then either configures the SerDes of a fibre chip or
writes what is to be advertised to the PHY of a copper one.  The link options it reads and stores are
fields of `rtl8125_private`; `rtl8125_set_link_option` sets them when the driver starts.

Register readings are an argument (`PhyRegs`); what a call programs is recorded (`PhyCall`).  How EEE is
enabled in the PHY and how the SerDes is configured is left out.

* `setLinkOption`, `setPhyMedium` — the two functions;
* `settle` — the speed and duplex mode a call makes of those it is given; `settle_settle`;
* `setPhyMedium_stored` — **what the link options are after a call**;
* `autoNego_pause` — **pause frames are advertised exactly under full flow control**;
* `Programmed.speeds`, `nway_speeds` — **the speeds advertised are those of the mask**.
-/

namespace Rtl812x

/-- `HwSuppMaxPhyLinkSpeed`. -/
def hwSuppMaxPhyLinkSpeed : Mcfg → ℕ
  | .m2 | .m3 | .m4 | .m5 | .m8 | .m9 | .m10 | .m11 | .m12 => 2500
  | .m31 | .m32 | .m33 => 5000
  | .m41 | .m42 => 10000
  | .m6 | .m7 | .m13 => 1000

/-- The chip, and the low byte of MAC register 0xD006, which tells a fibre chip. -/
structure PhyConfig where
  mcfg : Mcfg
  d006 : BitVec 8
deriving DecidableEq, Repr

/-- `rtl8127_check_fiber_mode_support`. -/
def PhyConfig.fiberMode (cfg : PhyConfig) : Bool := cfg.mcfg = .m42 && cfg.d006 = 0x07

inductive Duplex where
  | half | full
deriving DecidableEq, Repr

/-- `rtl8125_fc_mode`. -/
inductive FcMode where
  | none | rxPause | txPause | full
deriving DecidableEq, Repr

/-! ### Bits -/

def advertised10baseTHalf : BitVec 64 := 0x1
def advertised10baseTFull : BitVec 64 := 0x2
def advertised100baseTHalf : BitVec 64 := 0x4
def advertised100baseTFull : BitVec 64 := 0x8
def advertised1000baseTHalf : BitVec 64 := 0x10
def advertised1000baseTFull : BitVec 64 := 0x20
def advertised10000baseTFull : BitVec 64 := 0x1000
def advertised2500baseXFull : BitVec 64 := 0x8000
def rtkAdvertised5000baseXFull : BitVec 64 := 0x1000000000000

def advertise10Half : BitVec 16 := 0x0020
def advertise10Full : BitVec 16 := 0x0040
def advertise100Half : BitVec 16 := 0x0080
def advertise100Full : BitVec 16 := 0x0100
def advertisePauseCap : BitVec 16 := 0x0400
def advertisePauseAsym : BitVec 16 := 0x0800
def advertise1000Half : BitVec 16 := 0x0100
def advertise1000Full : BitVec 16 := 0x0200
def rtkAdvertise2500Full : BitVec 16 := 0x0080
def rtkAdvertise5000Full : BitVec 16 := 0x0100
def rtkAdvertise10000Full : BitVec 16 := 0x1000

/-- `if (c) a |= x;`. -/
def orIf (c : Bool) (x a : BitVec 16) : BitVec 16 := if c then a ||| x else a

/-! ### Link options -/

/-- The link options in `rtl8125_private`. -/
structure LinkOption where
  autoneg : Bool
  speed : ℕ
  duplex : Duplex
  advertising : BitVec 64
  fcpause : FcMode
  eeeEnabled : Bool
deriving DecidableEq, Repr

def speedModeValid (speed : ℕ) : Bool := speed ∈ [10000, 5000, 2500, 1000, 100, 10]

/-- The modes up to 1000 Mbit/s. -/
def advertisedGiga : BitVec 64 :=
  advertised10baseTHalf ||| advertised10baseTFull ||| advertised100baseTHalf |||
    advertised100baseTFull ||| advertised1000baseTHalf ||| advertised1000baseTFull

/-- The modes `rtl8125_set_link_option` advertises up to a speed. -/
def linkOptionAdv (speed : ℕ) : BitVec 64 :=
  if speed = 10000 then
    advertised10000baseTFull ||| rtkAdvertised5000baseXFull ||| advertised2500baseXFull ||| advertisedGiga
  else if speed = 5000 then rtkAdvertised5000baseXFull ||| advertised2500baseXFull ||| advertisedGiga
  else if speed = 2500 then advertised2500baseXFull ||| advertisedGiga
  else advertisedGiga

/-- `rtl8125_set_link_option`. -/
def setLinkOption (mcfg : Mcfg) (autoneg : Bool) (speed : ℕ) (duplex : Duplex) (fc : FcMode)
    (tp : LinkOption) : LinkOption :=
  let speed := min (if speedModeValid speed then speed else 10000) (hwSuppMaxPhyLinkSpeed mcfg)
  { tp with autoneg, speed, duplex, advertising := linkOptionAdv speed, fcpause := fc }

/-! ### `rtl812xSetPhyMedium` -/

/-- What the PHY's advertisement registers read. -/
structure PhyRegs where
  miiAdvertise : BitVec 16
  miiCtrl1000 : BitVec 16
  ctrl2500 : BitVec 16
deriving DecidableEq, Repr

/-- What a call programs: the SerDes, the three advertisement registers, a forced mode, or nothing. -/
inductive Programmed where
  | fiber (speed : ℕ)
  | nway (autoNego gigaCtrl ctrl2500 : BitVec 16)
  | force (speed : ℕ) (duplex : Duplex)
  | nothing
deriving DecidableEq, Repr

/-- A call: its arguments, whether it enables EEE, and what it programs. -/
structure PhyCall where
  autoneg : Bool
  speed : ℕ
  duplex : Duplex
  adv : BitVec 64
  eee : Bool
  programmed : Programmed
deriving DecidableEq, Repr

/-- The highest speed of the chip. -/
def topSpeed (mcfg : Mcfg) : ℕ :=
  if 10000 ≤ hwSuppMaxPhyLinkSpeed mcfg then 10000
  else if 5000 ≤ hwSuppMaxPhyLinkSpeed mcfg then 5000
  else if 2500 ≤ hwSuppMaxPhyLinkSpeed mcfg then 2500
  else 1000

/-- A speed that is not valid stands for the highest of the chip. -/
def resolveSpeed (mcfg : Mcfg) (speed : ℕ) : ℕ := if speedModeValid speed then speed else topSpeed mcfg

/-- The SerDes runs at 1000 or 10000 Mbit/s. -/
def fiberSpeed (speed : ℕ) : ℕ := if speed ≠ 1000 then 10000 else speed

def autoNegoMask : BitVec 16 :=
  advertise10Half ||| advertise10Full ||| advertise100Half ||| advertise100Full ||| advertisePauseCap |||
    advertisePauseAsym

def gigaCtrlMask : BitVec 16 := advertise1000Half ||| advertise1000Full

def ctrl2500Mask : BitVec 16 := rtkAdvertise2500Full ||| rtkAdvertise5000Full ||| rtkAdvertise10000Full

def autoNego (adv : BitVec 64) (fc : FcMode) (old : BitVec 16) : BitVec 16 :=
  let a := old &&& ~~~autoNegoMask
  let a := orIf (adv &&& advertised10baseTHalf != 0) advertise10Half a
  let a := orIf (adv &&& advertised10baseTFull != 0) advertise10Full a
  let a := orIf (adv &&& advertised100baseTHalf != 0) advertise100Half a
  let a := orIf (adv &&& advertised100baseTFull != 0) advertise100Full a
  orIf (fc = .full) (advertisePauseCap ||| advertisePauseAsym) a

def gigaCtrl (adv : BitVec 64) (old : BitVec 16) : BitVec 16 :=
  let a := old &&& ~~~gigaCtrlMask
  let a := orIf (adv &&& advertised1000baseTHalf != 0) advertise1000Half a
  orIf (adv &&& advertised1000baseTFull != 0) advertise1000Full a

def ctrl2500 (mcfg : Mcfg) (adv : BitVec 64) (old : BitVec 16) : BitVec 16 :=
  let a := old &&& ~~~ctrl2500Mask
  let a := orIf (adv &&& advertised2500baseXFull != 0) rtkAdvertise2500Full a
  let a := orIf (5000 ≤ hwSuppMaxPhyLinkSpeed mcfg && adv &&& rtkAdvertised5000baseXFull != 0)
    rtkAdvertise5000Full a
  orIf (10000 ≤ hwSuppMaxPhyLinkSpeed mcfg && adv &&& advertised10000baseTFull != 0)
    rtkAdvertise10000Full a

/-- `rtl812xSetPhyMedium`; `eee` says whether it enables EEE. -/
def setPhyMedium (cfg : PhyConfig) (eee : Bool) (regs : PhyRegs) (autoneg : Bool) (speed : ℕ)
    (duplex : Duplex) (adv : BitVec 64) (tp : LinkOption) : LinkOption × PhyCall :=
  let speed' := resolveSpeed cfg.mcfg speed
  let duplex' := if speedModeValid speed then duplex else .full
  let adv' := if speedModeValid speed then adv else adv ||| tp.advertising
  let call (p : Programmed) : PhyCall := ⟨autoneg, speed, duplex, adv, eee, p⟩
  if cfg.fiberMode then
    -- the link is forced through the SerDes
    let speed' := fiberSpeed speed'
    ({ tp with autoneg, speed := speed', duplex := .full, advertising := adv' }, call (.fiber speed'))
  else if autoneg then
    ({ tp with autoneg, speed := speed', duplex := duplex', advertising := adv' },
      call (.nway (autoNego adv' tp.fcpause regs.miiAdvertise) (gigaCtrl adv' regs.miiCtrl1000)
        (ctrl2500 cfg.mcfg adv' regs.ctrl2500)))
  else if speed' = 10 ∨ speed' = 100 then
    ({ tp with autoneg, speed := speed', duplex := duplex', advertising := adv' },
      call (.force speed' duplex'))
  else (tp, call .nothing)

/-! ### What is stored -/

/-- The speed and duplex mode a call makes of those it is given. -/
def settle (cfg : PhyConfig) (speed : ℕ) (duplex : Duplex) : ℕ × Duplex :=
  if cfg.fiberMode then (fiberSpeed (resolveSpeed cfg.mcfg speed), .full)
  else (resolveSpeed cfg.mcfg speed, if speedModeValid speed then duplex else .full)

theorem speedModeValid_topSpeed (mcfg : Mcfg) : speedModeValid (topSpeed mcfg) = true := by
  cases mcfg <;> decide

theorem speedModeValid_resolveSpeed (mcfg : Mcfg) (speed : ℕ) :
    speedModeValid (resolveSpeed mcfg speed) = true := by
  unfold resolveSpeed
  split
  case isTrue h => exact h
  case isFalse => exact speedModeValid_topSpeed mcfg

theorem fiberSpeed_eq (speed : ℕ) : fiberSpeed speed = 1000 ∨ fiberSpeed speed = 10000 := by
  unfold fiberSpeed
  split
  · exact .inr rfl
  case isFalse h => exact .inl (Decidable.not_not.mp h)

theorem speedModeValid_fiberSpeed (speed : ℕ) : speedModeValid (fiberSpeed speed) = true := by
  rcases fiberSpeed_eq speed with h | h <;> rw [h] <;> rfl

theorem fiberSpeed_fiberSpeed (speed : ℕ) : fiberSpeed (fiberSpeed speed) = fiberSpeed speed := by
  rcases fiberSpeed_eq speed with h | h <;> rw [h] <;> rfl

theorem resolveSpeed_of_valid {speed : ℕ} (h : speedModeValid speed = true) (mcfg : Mcfg) :
    resolveSpeed mcfg speed = speed := if_pos h

/-- What was settled stays settled. -/
theorem settle_settle (cfg : PhyConfig) (speed : ℕ) (duplex : Duplex) :
    settle cfg (settle cfg speed duplex).1 (settle cfg speed duplex).2 = settle cfg speed duplex := by
  unfold settle
  cases cfg.fiberMode with
  | true =>
      simp only [if_true]
      rw [resolveSpeed_of_valid (speedModeValid_fiberSpeed _), fiberSpeed_fiberSpeed]
  | false =>
      simp only [if_neg Bool.false_ne_true]
      rw [resolveSpeed_of_valid (speedModeValid_resolveSpeed _ _), speedModeValid_resolveSpeed, if_pos rfl]

/-- **The link options after a call** that negotiates: settled, with the modes it advertises. -/
theorem setPhyMedium_stored (cfg : PhyConfig) (eee : Bool) (regs : PhyRegs) (speed : ℕ) (duplex : Duplex)
    (tp : LinkOption) :
    (setPhyMedium cfg eee regs true speed duplex tp.advertising tp).1 =
      { tp with
        autoneg := true
        speed := (settle cfg speed duplex).1
        duplex := (settle cfg speed duplex).2 } := by
  have hadv : (if speedModeValid speed then tp.advertising else tp.advertising ||| tp.advertising) =
      tp.advertising := by
    rw [BitVec.or_self, ite_self]
  unfold setPhyMedium settle
  dsimp only
  rw [hadv]
  cases cfg.fiberMode <;> rfl

/-- The call records its arguments. -/
theorem setPhyMedium_args (cfg : PhyConfig) (eee : Bool) (regs : PhyRegs) (autoneg : Bool) (speed : ℕ)
    (duplex : Duplex) (adv : BitVec 64) (tp : LinkOption) :
    ∃ p, (setPhyMedium cfg eee regs autoneg speed duplex adv tp).2 =
      ⟨autoneg, speed, duplex, adv, eee, p⟩ := by
  unfold setPhyMedium
  dsimp only
  split_ifs <;> exact ⟨_, rfl⟩

/-- What a fibre chip is told. -/
theorem setPhyMedium_fiber {cfg : PhyConfig} (h : cfg.fiberMode = true) (eee : Bool) (regs : PhyRegs)
    (autoneg : Bool) (speed : ℕ) (duplex : Duplex) (adv : BitVec 64) (tp : LinkOption) :
    (setPhyMedium cfg eee regs autoneg speed duplex adv tp).2.programmed =
      .fiber (fiberSpeed (resolveSpeed cfg.mcfg speed)) := by
  unfold setPhyMedium
  rw [h, if_pos rfl]

/-- What a copper chip is told when it negotiates. -/
theorem setPhyMedium_copper {cfg : PhyConfig} (h : cfg.fiberMode = false) (eee : Bool) (regs : PhyRegs)
    (speed : ℕ) (duplex : Duplex) (tp : LinkOption) :
    (setPhyMedium cfg eee regs true speed duplex tp.advertising tp).2.programmed =
      .nway (autoNego tp.advertising tp.fcpause regs.miiAdvertise)
        (gigaCtrl tp.advertising regs.miiCtrl1000) (ctrl2500 cfg.mcfg tp.advertising regs.ctrl2500) := by
  have hadv : (if speedModeValid speed then tp.advertising else tp.advertising ||| tp.advertising) =
      tp.advertising := by
    rw [BitVec.or_self, ite_self]
  unfold setPhyMedium
  rw [h, if_neg Bool.false_ne_true, if_pos rfl, hadv]

/-! ### What is advertised -/

def pauseBits : BitVec 16 := advertisePauseCap ||| advertisePauseAsym

theorem orIf_and (c : Bool) (x a s : BitVec 16) : orIf c x a &&& s = orIf c (x &&& s) (a &&& s) := by
  unfold orIf
  split
  · exact BitVec.and_or_distrib_right
  · rfl

theorem orIf_zero (c : Bool) (a : BitVec 16) : orIf c 0 a = a := by
  unfold orIf
  split
  · exact BitVec.or_zero
  · rfl

/-- Bits that were cleared are clear. -/
theorem and_not_and {mask s : BitVec 16} (h : mask &&& s = s) (old : BitVec 16) :
    old &&& ~~~mask &&& s = 0 := by
  have hnot : ~~~mask &&& s = 0 := by
    rw [← h, ← BitVec.and_assoc, BitVec.not_and_self]
    exact BitVec.zero_and
  rw [BitVec.and_assoc, hnot]
  exact BitVec.and_zero

/-- The register for the speeds up to 100 Mbit/s and flow control, seen through a mask. -/
theorem autoNego_and (adv : BitVec 64) (fc : FcMode) (old : BitVec 16) {bits : BitVec 16}
    (hbits : autoNegoMask &&& bits = bits) :
    autoNego adv fc old &&& bits =
      orIf (fc = .full) (pauseBits &&& bits)
        (orIf (adv &&& advertised100baseTFull != 0) (advertise100Full &&& bits)
          (orIf (adv &&& advertised100baseTHalf != 0) (advertise100Half &&& bits)
            (orIf (adv &&& advertised10baseTFull != 0) (advertise10Full &&& bits)
              (orIf (adv &&& advertised10baseTHalf != 0) (advertise10Half &&& bits) 0)))) := by
  simp only [autoNego, pauseBits, orIf_and, and_not_and hbits old]

/-- **Pause frames are advertised exactly under full flow control.** -/
theorem autoNego_pause (adv : BitVec 64) (fc : FcMode) (old : BitVec 16) :
    autoNego adv fc old &&& pauseBits = if fc = .full then pauseBits else 0 := by
  rw [autoNego_and adv fc old (by decide), show advertise10Half &&& pauseBits = 0 by decide,
    show advertise10Full &&& pauseBits = 0 by decide, show advertise100Half &&& pauseBits = 0 by decide,
    show advertise100Full &&& pauseBits = 0 by decide]
  simp only [orIf_zero]
  cases fc <;> decide

/-- The speeds for which a condition holds. -/
def speedsWith (b10 b100 b1000 b2500 b5000 b10000 : Bool) : List ℕ :=
  ([(10, b10), (100, b100), (1000, b1000), (2500, b2500), (5000, b5000), (10000, b10000)].filter
    Prod.snd).map Prod.fst

/-- The speeds of which a mode is advertised. -/
def Programmed.speeds : Programmed → List ℕ
  | .nway autoNego gigaCtrl ctrl2500 =>
      speedsWith (autoNego &&& (advertise10Half ||| advertise10Full) != 0)
        (autoNego &&& (advertise100Half ||| advertise100Full) != 0)
        (gigaCtrl &&& (advertise1000Half ||| advertise1000Full) != 0)
        (ctrl2500 &&& rtkAdvertise2500Full != 0) (ctrl2500 &&& rtkAdvertise5000Full != 0)
        (ctrl2500 &&& rtkAdvertise10000Full != 0)
  | _ => []

/-- The speeds of the modes in a mask, as far as the chip has them. -/
def maskSpeeds (mcfg : Mcfg) (adv : BitVec 64) : List ℕ :=
  speedsWith (adv &&& advertised10baseTHalf != 0 || adv &&& advertised10baseTFull != 0)
    (adv &&& advertised100baseTHalf != 0 || adv &&& advertised100baseTFull != 0)
    (adv &&& advertised1000baseTHalf != 0 || adv &&& advertised1000baseTFull != 0)
    (adv &&& advertised2500baseXFull != 0)
    (5000 ≤ hwSuppMaxPhyLinkSpeed mcfg && adv &&& rtkAdvertised5000baseXFull != 0)
    (10000 ≤ hwSuppMaxPhyLinkSpeed mcfg && adv &&& advertised10000baseTFull != 0)

theorem autoNego_10 (adv : BitVec 64) (fc : FcMode) (old : BitVec 16) :
    (autoNego adv fc old &&& (advertise10Half ||| advertise10Full) != 0) =
      (adv &&& advertised10baseTHalf != 0 || adv &&& advertised10baseTFull != 0) := by
  rw [autoNego_and adv fc old (by decide),
    show pauseBits &&& (advertise10Half ||| advertise10Full) = 0 by decide,
    show advertise100Full &&& (advertise10Half ||| advertise10Full) = 0 by decide,
    show advertise100Half &&& (advertise10Half ||| advertise10Full) = 0 by decide]
  simp only [orIf_zero]
  cases adv &&& advertised10baseTHalf != 0 <;> cases adv &&& advertised10baseTFull != 0 <;> decide

theorem autoNego_100 (adv : BitVec 64) (fc : FcMode) (old : BitVec 16) :
    (autoNego adv fc old &&& (advertise100Half ||| advertise100Full) != 0) =
      (adv &&& advertised100baseTHalf != 0 || adv &&& advertised100baseTFull != 0) := by
  rw [autoNego_and adv fc old (by decide),
    show pauseBits &&& (advertise100Half ||| advertise100Full) = 0 by decide,
    show advertise10Full &&& (advertise100Half ||| advertise100Full) = 0 by decide,
    show advertise10Half &&& (advertise100Half ||| advertise100Full) = 0 by decide]
  simp only [orIf_zero]
  cases adv &&& advertised100baseTHalf != 0 <;> cases adv &&& advertised100baseTFull != 0 <;> decide

theorem gigaCtrl_1000 (adv : BitVec 64) (old : BitVec 16) :
    (gigaCtrl adv old &&& (advertise1000Half ||| advertise1000Full) != 0) =
      (adv &&& advertised1000baseTHalf != 0 || adv &&& advertised1000baseTFull != 0) := by
  have hclear : old &&& ~~~gigaCtrlMask &&& (advertise1000Half ||| advertise1000Full) = 0 :=
    and_not_and (by decide) old
  simp only [gigaCtrl, orIf_and, hclear]
  cases adv &&& advertised1000baseTHalf != 0 <;> cases adv &&& advertised1000baseTFull != 0 <;> decide

/-- The register for the speeds beyond 1000 Mbit/s, seen through a mask. -/
theorem ctrl2500_and (mcfg : Mcfg) (adv : BitVec 64) (old : BitVec 16) {bit : BitVec 16}
    (hbit : ctrl2500Mask &&& bit = bit) :
    ctrl2500 mcfg adv old &&& bit =
      orIf (10000 ≤ hwSuppMaxPhyLinkSpeed mcfg && adv &&& advertised10000baseTFull != 0)
        (rtkAdvertise10000Full &&& bit)
        (orIf (5000 ≤ hwSuppMaxPhyLinkSpeed mcfg && adv &&& rtkAdvertised5000baseXFull != 0)
          (rtkAdvertise5000Full &&& bit)
          (orIf (adv &&& advertised2500baseXFull != 0) (rtkAdvertise2500Full &&& bit) 0)) := by
  simp only [ctrl2500, orIf_and, and_not_and hbit old]

theorem orIf_bne_zero {x : BitVec 16} (hx : (x != 0) = true) (c : Bool) : (orIf c x 0 != 0) = c := by
  cases c with
  | true =>
      rw [orIf, if_pos rfl, ← hx]
      exact congrArg (· != 0) BitVec.zero_or
  | false => rfl

/-- **The speeds advertised are those of the mask**, whatever the registers read. -/
theorem nway_speeds (mcfg : Mcfg) (adv : BitVec 64) (fc : FcMode) (a g k : BitVec 16) :
    (Programmed.nway (autoNego adv fc a) (gigaCtrl adv g) (ctrl2500 mcfg adv k)).speeds =
      maskSpeeds mcfg adv := by
  have h2500 : (ctrl2500 mcfg adv k &&& rtkAdvertise2500Full != 0) =
      (adv &&& advertised2500baseXFull != 0) := by
    rw [ctrl2500_and mcfg adv k (by decide)]
    simp only [show rtkAdvertise10000Full &&& rtkAdvertise2500Full = 0 by decide,
      show rtkAdvertise5000Full &&& rtkAdvertise2500Full = 0 by decide, orIf_zero]
    exact orIf_bne_zero (by decide) _
  have h5000 : (ctrl2500 mcfg adv k &&& rtkAdvertise5000Full != 0) =
      (5000 ≤ hwSuppMaxPhyLinkSpeed mcfg && adv &&& rtkAdvertised5000baseXFull != 0) := by
    rw [ctrl2500_and mcfg adv k (by decide)]
    simp only [show rtkAdvertise10000Full &&& rtkAdvertise5000Full = 0 by decide,
      show rtkAdvertise2500Full &&& rtkAdvertise5000Full = 0 by decide, orIf_zero]
    exact orIf_bne_zero (by decide) _
  have h10000 : (ctrl2500 mcfg adv k &&& rtkAdvertise10000Full != 0) =
      (10000 ≤ hwSuppMaxPhyLinkSpeed mcfg && adv &&& advertised10000baseTFull != 0) := by
    rw [ctrl2500_and mcfg adv k (by decide)]
    simp only [show rtkAdvertise5000Full &&& rtkAdvertise10000Full = 0 by decide,
      show rtkAdvertise2500Full &&& rtkAdvertise10000Full = 0 by decide, orIf_zero]
    exact orIf_bne_zero (by decide) _
  rw [Programmed.speeds, autoNego_10, autoNego_100, gigaCtrl_1000, h2500, h5000, h10000, maskSpeeds]

/-- The speeds of a chip. -/
def chipSpeeds (mcfg : Mcfg) : List ℕ :=
  [10, 100, 1000, 2500, 5000, 10000].filter (· ≤ hwSuppMaxPhyLinkSpeed mcfg)

/-- The modes a driver starts with are those of the chip. -/
theorem maskSpeeds_linkOptionAdv (mcfg : Mcfg) :
    maskSpeeds mcfg (linkOptionAdv (hwSuppMaxPhyLinkSpeed mcfg)) = chipSpeeds mcfg := by
  cases mcfg <;> decide

end Rtl812x
