import Rtl812x.Hw.PhyMedium
import Rtl812x.Lib.Runs

/-!
# The medium the user selected

`selectMedium` copies a row of `mediumArray` into the link options and programs the PHY with them;
`rtl812xCheckLinkStatus` programs it again each time the link goes down.  When the link comes up it
overwrites speed, duplex mode, flow control and EEE in the same fields with what was negotiated.

* `mediumArray`, `rtl812xMedium2Adv`, `selectMedium`, `rtl812xGetEEEMode`, `rtl812xCheckLinkStatus`;
* `StandsFor` — a call of `rtl812xSetPhyMedium` has the arguments of a medium and advertises its flow
  control and EEE; speeds and duplex modes are compared as the call settles them;
* `Kept` — the link options are still those of the medium; `kept_setLinkDown`, `kept_linkUp` — **what a
  link change does to that**;
* `FlapsAgree` — whenever the link goes down, what was negotiated last agrees with the medium;
* `medium_kept_iff` — **exactly then every call is made for the medium**.
-/

namespace Rtl812x.Kext.LinkMedium

open Runs

/-! ### The medium table -/

/-- The indices of the medium table. -/
inductive MediumIndex where
  | auto
  | m10HD | m10FD
  | m100HD | m100FD | m100FDFC | m100FDEEE | m100FDFCEEE
  | m1000FD | m1000FDFC | m1000FDEEE | m1000FDFCEEE
  | m2500FD | m2500FDFC | m2500FDEEE | m2500FDFCEEE
  | m5000FD | m5000FDFC | m5000FDEEE | m5000FDFCEEE
  | m10000FD | m10000FDFC | m10000FDEEE | m10000FDFCEEE
deriving DecidableEq, Repr

structure Medium where
  speed : ℕ
  duplex : Duplex
  fc : FcMode
  eee : Bool
  adv : BitVec 64
deriving DecidableEq, Repr

def advAll : BitVec 64 :=
  advertised10baseTHalf ||| advertised10baseTFull ||| advertised100baseTHalf |||
    advertised100baseTFull ||| advertised1000baseTFull

/-- What `setupMediumDict` makes of the first row. -/
def autoAdv (mcfg : Mcfg) : BitVec 64 :=
  if 10000 ≤ hwSuppMaxPhyLinkSpeed mcfg then
    advAll ||| (advertised2500baseXFull ||| rtkAdvertised5000baseXFull ||| advertised10000baseTFull)
  else if 5000 ≤ hwSuppMaxPhyLinkSpeed mcfg then
    advAll ||| (advertised2500baseXFull ||| rtkAdvertised5000baseXFull)
  else if 2500 ≤ hwSuppMaxPhyLinkSpeed mcfg then advAll ||| advertised2500baseXFull
  else advAll

def mediumArray (mcfg : Mcfg) : MediumIndex → Medium
  | .auto => ⟨0, .full, .none, false, autoAdv mcfg⟩
  | .m10HD => ⟨10, .half, .none, false, advertised10baseTHalf⟩
  | .m10FD => ⟨10, .full, .none, false, advertised10baseTFull⟩
  | .m100HD => ⟨100, .half, .none, false, advertised100baseTHalf⟩
  | .m100FD => ⟨100, .full, .none, false, advertised100baseTFull⟩
  | .m100FDFC => ⟨100, .full, .full, false, advertised100baseTFull⟩
  | .m100FDEEE => ⟨100, .full, .none, true, advertised100baseTFull⟩
  | .m100FDFCEEE => ⟨100, .full, .full, true, advertised100baseTFull⟩
  | .m1000FD => ⟨1000, .full, .none, false, advertised1000baseTFull⟩
  | .m1000FDFC => ⟨1000, .full, .full, false, advertised1000baseTFull⟩
  | .m1000FDEEE => ⟨1000, .full, .none, true, advertised1000baseTFull⟩
  | .m1000FDFCEEE => ⟨1000, .full, .full, true, advertised1000baseTFull⟩
  | .m2500FD => ⟨2500, .full, .none, false, advertised2500baseXFull⟩
  | .m2500FDFC => ⟨2500, .full, .full, false, advertised2500baseXFull⟩
  | .m2500FDEEE => ⟨2500, .full, .none, true, advertised2500baseXFull⟩
  | .m2500FDFCEEE => ⟨2500, .full, .full, true, advertised2500baseXFull⟩
  | .m5000FD => ⟨5000, .full, .none, false, rtkAdvertised5000baseXFull⟩
  | .m5000FDFC => ⟨5000, .full, .full, false, rtkAdvertised5000baseXFull⟩
  | .m5000FDEEE => ⟨5000, .full, .none, true, rtkAdvertised5000baseXFull⟩
  | .m5000FDFCEEE => ⟨5000, .full, .full, true, rtkAdvertised5000baseXFull⟩
  | .m10000FD => ⟨10000, .full, .none, false, 0⟩
  | .m10000FDFC => ⟨10000, .full, .full, false, 0⟩
  | .m10000FDEEE => ⟨10000, .full, .none, true, 0⟩
  | .m10000FDFCEEE => ⟨10000, .full, .full, true, 0⟩

/-! ### Functions -/

section Functions

variable (cfg : PhyConfig)

/-- The link options after `rtl812xInit`. -/
def initLinkOption : LinkOption :=
  { setLinkOption cfg.mcfg true (hwSuppMaxPhyLinkSpeed cfg.mcfg) .full .none
      ⟨false, 0, .half, 0, .none, false⟩ with
    eeeEnabled := true }

def rtl812xMedium2Adv (m : MediumIndex) (tp : LinkOption) : LinkOption :=
  { tp with
    speed := (mediumArray cfg.mcfg m).speed
    duplex := (mediumArray cfg.mcfg m).duplex
    fcpause := (mediumArray cfg.mcfg m).fc
    advertising := (mediumArray cfg.mcfg m).adv
    eeeEnabled := (mediumArray cfg.mcfg m).eee }

def rtl812xSetPhyMedium (regs : PhyRegs) (autoneg : Bool) (speed : ℕ) (duplex : Duplex) (adv : BitVec 64)
    (tp : LinkOption) : LinkOption × PhyCall :=
  setPhyMedium cfg (tp.eeeEnabled && autoneg) regs autoneg speed duplex adv tp

/-- `setLinkDown`, as far as it programs the PHY. -/
def setLinkDown (regs : PhyRegs) (tp : LinkOption) : LinkOption × PhyCall :=
  rtl812xSetPhyMedium cfg regs tp.autoneg tp.speed tp.duplex tp.advertising tp

def selectMedium (m : MediumIndex) (regs : PhyRegs) (tp : LinkOption) : LinkOption × PhyCall :=
  setLinkDown cfg regs (rtl812xMedium2Adv cfg m tp)

/-- What the registers read when the link status is checked. -/
structure LinkReading where
  phyStatus : UInt32
  macE040 : BitVec 16
  regs : PhyRegs
deriving DecidableEq, Repr

def LinkReading.up (r : LinkReading) : Bool := phyLinkUp r.phyStatus

/-- EEE counts as enabled if the MAC has either direction on. -/
def LinkReading.eee (r : LinkReading) : Bool := r.macE040 &&& (0x2 ||| 0x1) != 0

def LinkReading.fc (r : LinkReading) : FcMode :=
  if r.phyStatus &&& (0x40 ||| 0x20) ≠ 0 then .full else .none

def LinkReading.dup (r : LinkReading) : Duplex := if r.phyStatus &&& 0x01 ≠ 0 then .full else .half

/-- The speed and duplex mode of a link that is up. -/
def LinkReading.medium (r : LinkReading) : ℕ × Duplex :=
  if r.phyStatus &&& 0x4000 ≠ 0 then (10000, .full)
  else if r.phyStatus &&& (0x1000 ||| 0x2000) ≠ 0 then (5000, .full)
  else if r.phyStatus &&& (0x400 ||| 0x800) ≠ 0 then (2500, .full)
  else if r.phyStatus &&& (0x10 ||| 0x200 ||| 0x80000) ≠ 0 then (1000, .full)
  else if r.phyStatus &&& 0x08 ≠ 0 then (100, r.dup)
  else (10, r.dup)

def rtl812xGetEEEMode (r : LinkReading) (tp : LinkOption) : LinkOption := { tp with eeeEnabled := r.eee }

def rtl812xCheckLinkStatus (r : LinkReading) (tp : LinkOption) : LinkOption × Option PhyCall :=
  if r.up then
    ({ rtl812xGetEEEMode r tp with fcpause := r.fc, speed := r.medium.1, duplex := r.medium.2 }, none)
  else
    let p := setLinkDown cfg r.regs tp
    (p.1, some p.2)

/-- What can happen to the link options. -/
inductive MediumOp where
  | select (m : MediumIndex) (regs : PhyRegs)
  | link (r : LinkReading)

def mediumStep (tp : LinkOption) : MediumOp → LinkOption
  | .select m regs => (selectMedium cfg m regs tp).1
  | .link r => (rtl812xCheckLinkStatus cfg r tp).1

/-- The calls of `rtl812xSetPhyMedium` as the link status is checked again and again. -/
def linkCalls : LinkOption → List LinkReading → List PhyCall
  | _, [] => []
  | tp, r :: rs =>
      (rtl812xCheckLinkStatus cfg r tp).2.toList ++ linkCalls (rtl812xCheckLinkStatus cfg r tp).1 rs

end Functions

/-! ### Calls made for a medium -/

/-- The call is made for the medium `m`, and advertises its flow control and EEE. -/
structure StandsFor (cfg : PhyConfig) (m : Medium) (call : PhyCall) : Prop where
  autoneg : call.autoneg = true
  medium : settle cfg call.speed call.duplex = settle cfg m.speed m.duplex
  adv : call.adv = m.adv
  eee : call.eee = m.eee
  pause : ∀ a g k, call.programmed = .nway a g k →
    a &&& pauseBits = if m.fc = .full then pauseBits else 0

/-- The link options are those of the medium `m`. -/
structure Kept (cfg : PhyConfig) (m : Medium) (tp : LinkOption) : Prop where
  medium : settle cfg tp.speed tp.duplex = settle cfg m.speed m.duplex
  eee : tp.eeeEnabled = m.eee
  pause : cfg.fiberMode = false → (tp.fcpause = .full ↔ m.fc = .full)

/-- What was negotiated is what `m` stands for. -/
structure LinkReading.Agrees (r : LinkReading) (cfg : PhyConfig) (m : Medium) : Prop where
  medium : settle cfg r.medium.1 r.medium.2 = settle cfg m.speed m.duplex
  eee : r.eee = m.eee
  pause : cfg.fiberMode = false → (r.fc = .full ↔ m.fc = .full)

/-- The link options no link change touches. -/
structure Negotiates (m : Medium) (tp : LinkOption) : Prop where
  autoneg : tp.autoneg = true
  adv : tp.advertising = m.adv

/-- Whenever the link goes down, the last reading of a link that was up agrees with `m`. -/
def FlapsAgree (cfg : PhyConfig) (m : Medium) : Option LinkReading → List LinkReading → Prop
  | _, [] => True
  | last, r :: rs =>
      if r.up then FlapsAgree cfg m (some r) rs
      else (∀ r' ∈ last, r'.Agrees cfg m) ∧ FlapsAgree cfg m last rs

/-! ### A link change -/

section LinkChange

variable {cfg : PhyConfig} {m : Medium} {tp : LinkOption} {r : LinkReading}

theorem pauseBits_ite_iff (p q : Prop) [Decidable p] [Decidable q] :
    (if p then pauseBits else 0) = (if q then pauseBits else 0) ↔ (p ↔ q) := by
  have hne : pauseBits ≠ 0#16 := by decide
  by_cases hp : p <;> by_cases hq : q <;> simp [hp, hq, hne, hne.symm]

theorem setLinkDown_eq (h : tp.autoneg = true) (regs : PhyRegs) : (setLinkDown cfg regs tp).1 =
    { tp with
      speed := (settle cfg tp.speed tp.duplex).1
      duplex := (settle cfg tp.speed tp.duplex).2 } := by
  rw [setLinkDown, rtl812xSetPhyMedium, h, setPhyMedium_stored]

/-- **A call is made for `m` exactly if the link options are those of `m`.** -/
theorem standsFor_setLinkDown_iff (h : Negotiates m tp) (regs : PhyRegs) :
    StandsFor cfg m (setLinkDown cfg regs tp).2 ↔ Kept cfg m tp := by
  obtain ⟨p, hp⟩ := setPhyMedium_args cfg (tp.eeeEnabled && tp.autoneg) regs tp.autoneg tp.speed
    tp.duplex tp.advertising tp
  have hcall : (setLinkDown cfg regs tp).2 = ⟨tp.autoneg, tp.speed, tp.duplex, tp.advertising,
      tp.eeeEnabled && tp.autoneg, p⟩ := hp
  have heee : (tp.eeeEnabled && tp.autoneg) = tp.eeeEnabled := by rw [h.autoneg, Bool.and_true]
  have hpause : (∀ a g k, p = .nway a g k → a &&& pauseBits = if m.fc = .full then pauseBits else 0) ↔
      (cfg.fiberMode = false → (tp.fcpause = .full ↔ m.fc = .full)) := by
    have hprog : p = (setLinkDown cfg regs tp).2.programmed := by rw [hcall]
    rw [setLinkDown, rtl812xSetPhyMedium, h.autoneg] at hprog
    cases hf : cfg.fiberMode with
    | true =>
        rw [setPhyMedium_fiber hf] at hprog
        rw [hprog]
        exact ⟨fun _ h' => absurd h'.symm Bool.false_ne_true, fun _ _ _ _ h' => by cases h'⟩
    | false =>
        rw [setPhyMedium_copper hf] at hprog
        rw [hprog]
        constructor
        · intro hall _
          have hbits := hall _ _ _ rfl
          rwa [autoNego_pause, pauseBits_ite_iff] at hbits
        · rintro hiff _ _ _ ⟨⟩
          rw [autoNego_pause, pauseBits_ite_iff]
          exact hiff rfl
  rw [hcall]
  constructor
  · intro hs
    exact ⟨hs.medium, heee.symm.trans hs.eee, hpause.mp hs.pause⟩
  · intro hk
    exact ⟨h.autoneg, hk.medium, h.adv, heee.trans hk.eee, hpause.mpr hk.pause⟩

theorem Negotiates.setLinkDown (h : Negotiates m tp) (regs : PhyRegs) :
    Negotiates m (setLinkDown cfg regs tp).1 := by
  rw [setLinkDown_eq h.autoneg]
  exact ⟨h.autoneg, h.adv⟩

theorem Negotiates.check (h : Negotiates m tp) (r : LinkReading) :
    Negotiates m (rtl812xCheckLinkStatus cfg r tp).1 := by
  unfold rtl812xCheckLinkStatus
  split
  · exact ⟨h.autoneg, h.adv⟩
  · exact h.setLinkDown r.regs

/-- Programming the PHY keeps the medium, or the loss of it. -/
theorem kept_setLinkDown (h : tp.autoneg = true) (regs : PhyRegs) :
    Kept cfg m (setLinkDown cfg regs tp).1 ↔ Kept cfg m tp := by
  rw [setLinkDown_eq h]
  constructor
  · rintro ⟨hm, he, hp⟩
    rw [settle_settle] at hm
    exact ⟨hm, he, hp⟩
  · rintro ⟨hm, he, hp⟩
    refine ⟨?_, he, hp⟩
    rw [settle_settle]
    exact hm

/-- **A link that comes up replaces the options** by what was negotiated. -/
theorem kept_linkUp (hr : r.up = true) :
    Kept cfg m (rtl812xCheckLinkStatus cfg r tp).1 ↔ r.Agrees cfg m := by
  rw [rtl812xCheckLinkStatus, if_pos hr]
  exact ⟨fun h => ⟨h.medium, h.eee, h.pause⟩, fun h => ⟨h.medium, h.eee, h.pause⟩⟩

/-- A link that goes down makes a call and keeps the rest. -/
theorem rtl812xCheckLinkStatus_down (hr : r.up = false) : rtl812xCheckLinkStatus cfg r tp =
    ((setLinkDown cfg r.regs tp).1, some (setLinkDown cfg r.regs tp).2) := by
  rw [rtl812xCheckLinkStatus, if_neg (by rw [hr]; exact Bool.false_ne_true)]

theorem rtl812xCheckLinkStatus_up (hr : r.up = true) : (rtl812xCheckLinkStatus cfg r tp).2 = none := by
  rw [rtl812xCheckLinkStatus, if_pos hr]

end LinkChange

/-! ### Runs -/

section Runs

variable {cfg : PhyConfig} {m : Medium}

theorem linkCalls_standFor_iff {tp : LinkOption} {last : Option LinkReading} (hn : Negotiates m tp)
    (hk : Kept cfg m tp ↔ ∀ r ∈ last, r.Agrees cfg m) (rs : List LinkReading) :
    (∀ call ∈ linkCalls cfg tp rs, StandsFor cfg m call) ↔ FlapsAgree cfg m last rs := by
  induction rs generalizing tp last with
  | nil => exact ⟨fun _ => trivial, fun _ _ h => by cases h⟩
  | cons r rs ih =>
      rw [linkCalls, FlapsAgree]
      cases hr : r.up with
      | true =>
          rw [rtl812xCheckLinkStatus_up hr, if_pos rfl, Option.toList_none, List.nil_append]
          refine ih (hn.check r) ?_
          rw [kept_linkUp hr]
          simp
      | false =>
          -- the call is made from the options as they are, and these stay
          rw [if_neg Bool.false_ne_true, rtl812xCheckLinkStatus_down hr, Option.toList_some,
            List.singleton_append, List.forall_mem_cons, standsFor_setLinkDown_iff hn, hk]
          refine and_congr_right fun _ => ih (hn.setLinkDown r.regs) ?_
          rw [kept_setLinkDown hn.autoneg, hk]

theorem mediumStep_autoneg (tp : LinkOption) (op : MediumOp) (h : tp.autoneg = true) :
    (mediumStep cfg tp op).autoneg = true := by
  cases op with
  | select m regs =>
      have hm : (rtl812xMedium2Adv cfg m tp).autoneg = true := h
      rw [mediumStep, selectMedium, setLinkDown_eq hm]
      exact hm
  | link r => exact (Negotiates.check (m := ⟨0, .full, .none, false, tp.advertising⟩) ⟨h, rfl⟩ r).autoneg

/-- **The medium is kept exactly if every link that went down had been negotiated as the medium asks**,
whatever was selected and negotiated before, for every medium, chip and sequence of link changes.  The
call that `selectMedium` makes itself is among the calls. -/
theorem medium_kept_iff (cfg : PhyConfig) (before : List MediumOp) (m : MediumIndex) (regs : PhyRegs)
    (rs : List LinkReading) :
    (∀ call ∈ (selectMedium cfg m regs (exec (mediumStep cfg) (initLinkOption cfg) before)).2 ::
        linkCalls cfg (selectMedium cfg m regs (exec (mediumStep cfg) (initLinkOption cfg) before)).1 rs,
      StandsFor cfg (mediumArray cfg.mcfg m) call) ↔
    FlapsAgree cfg (mediumArray cfg.mcfg m) none rs := by
  have hauto : (exec (mediumStep cfg) (initLinkOption cfg) before).autoneg = true :=
    invariant_exec mediumStep_autoneg rfl
  generalize exec (mediumStep cfg) (initLinkOption cfg) before = tp at hauto
  have hn : Negotiates (mediumArray cfg.mcfg m) (rtl812xMedium2Adv cfg m tp) := ⟨hauto, rfl⟩
  have hk : Kept cfg (mediumArray cfg.mcfg m) (rtl812xMedium2Adv cfg m tp) := ⟨rfl, rfl, fun _ => Iff.rfl⟩
  have hselect : StandsFor cfg (mediumArray cfg.mcfg m) (selectMedium cfg m regs tp).2 :=
    (standsFor_setLinkDown_iff hn regs).mpr hk
  rw [List.forall_mem_cons, and_iff_right hselect]
  refine linkCalls_standFor_iff (hn.setLinkDown regs) ?_ rs
  exact iff_of_true ((kept_setLinkDown hn.autoneg regs).mpr hk) fun _ h => by cases h

def copperChip : PhyConfig := ⟨.m31, 0⟩
def zeroRegs : PhyRegs := ⟨0, 0, 0⟩

/-- A link at 1000 Mbit/s with flow control, and EEE on. -/
def gigabitLink : LinkReading := ⟨0x73, 0x3, zeroRegs⟩

def linkLost : LinkReading := ⟨0x70, 0, zeroRegs⟩

/-- **After one link flap the automatic medium is gone**: the call that follows asks for 1000 Mbit/s,
enables EEE and advertises pause frames. -/
theorem auto_lost_after_flap :
    ∃ call, linkCalls copperChip (selectMedium copperChip .auto zeroRegs (initLinkOption copperChip)).1
        [gigabitLink, linkLost] = [call] ∧
      call.speed = 1000 ∧ call.eee = true ∧
      (∃ a g k, call.programmed = .nway a g k ∧ a &&& pauseBits = pauseBits) ∧
      ¬StandsFor copperChip (mediumArray copperChip.mcfg .auto) call := by
  refine ⟨_, rfl, rfl, rfl, ⟨_, _, _, rfl, by decide⟩, fun h => ?_⟩
  exact absurd h.eee (by decide)

end Runs

end Rtl812x.Kext.LinkMedium
