import Rtl812x.Kext.Medium

/-!
# What the kext reports of a link

When the link comes up, `rtl812xCheckLinkStatus` takes speed, duplex mode and flow control from PHYstatus,
`rtl812xGetEEEMode` compares what both ends advertise for EEE, and `setLinkUp` tells the stack which row of
the medium table the link is.  Of that table `setupMediumDict` publishes the first rows only, as many as the
speeds of the chip call for; the others have no medium object.

EEE counts as active when both ends advertise it at *some* speed the driver supports it at, which need not
be the speed of the link.  The first two chip variants have no EEE at 2.5 Gbit/s, and the rows for it are not
published for them.

* `eeeActive_iff` — the speeds at which common EEE counts;
* `linkUpIndex`, `mediumSpeed`, `mediumLimit` — which row `setLinkUp` picks, and which rows are published;
* `Row` — what a row says of a link; `row_linkUpIndex` — **the row picked says what was read**;
* `link_report` — **the report agrees with the registers, and names a published medium unless the link is
  one of 2.5 Gbit/s on such a chip with EEE at a lower speed**.
-/

namespace Rtl812x.Kext.LinkMedium

/-! ### Energy-efficient Ethernet -/

/-- What the PHY registers 0xA5D0, 0xA6D4 (what this end advertises for EEE), 0xA5D2 and 0xA6D0 (the link
partner) read. -/
structure EeeRegs where
  a5d0 : BitVec 16
  a6d4 : BitVec 16
  a5d2 : BitVec 16
  a6d0 : BitVec 16
deriving DecidableEq, Repr

/-- The bit of a link mode. -/
def modeBit (nbit : ℕ) : BitVec 32 := BitVec.twoPow 32 nbit

/-- `linkmode_set_bit`: the shift is one of a 32-bit register, so bit 47 is bit 15. -/
def linkmodeSetBit (nbit : ℕ) (dst : BitVec 32) : BitVec 32 := dst ||| modeBit (nbit % 32)

/-- A variant before `CFG_METHOD_4`. -/
def beforeM4 (mcfg : Mcfg) : Bool := mcfg = .m2 || mcfg = .m3

/-- `tp->eee.supported`, as `rtl812xInit` leaves it. -/
def eeeSupported (mcfg : Mcfg) : BitVec 32 :=
  let s := linkmodeSetBit 5 (linkmodeSetBit 3 0)
  if beforeM4 mcfg then s
  else
    let s := if 2500 ≤ hwSuppMaxPhyLinkSpeed mcfg then linkmodeSetBit 47 s else s
    if 5000 ≤ hwSuppMaxPhyLinkSpeed mcfg then linkmodeSetBit 48 s else s

/-- Add a link mode if a bit of a register is set. -/
def addMode (v : BitVec 16) (bit nbit : ℕ) (adv : BitVec 32) : BitVec 32 :=
  if v.getLsbD bit then adv ||| modeBit nbit else adv

/-- `mmd_eee_adv_to_ethtool_adv_t`. -/
def mmdEeeAdvToEthtoolAdv (v : BitVec 16) : BitVec 32 :=
  addMode v 6 19 (addMode v 5 18 (addMode v 4 17 (addMode v 3 12 (addMode v 2 5 (addMode v 1 3 0)))))

/-- `tp->eee.eee_active`, as `rtl812xGetEEEMode` sets it. -/
def eeeActive (mcfg : Mcfg) (e : EeeRegs) : Bool :=
  let adv := addMode e.a6d4 0 15 (mmdEeeAdvToEthtoolAdv e.a5d0)
  let lp := addMode e.a6d0 0 15 (mmdEeeAdvToEthtoolAdv e.a5d2)
  eeeSupported mcfg &&& adv &&& lp != 0

/-- Both ends advertise EEE at 100 Mbit/s or at 1 Gbit/s. -/
def EeeRegs.slow (e : EeeRegs) : Prop :=
  (e.a5d0.getLsbD 1 = true ∧ e.a5d2.getLsbD 1 = true) ∨ (e.a5d0.getLsbD 2 = true ∧ e.a5d2.getLsbD 2 = true)

/-- Both ends advertise EEE at 2.5 Gbit/s. -/
def EeeRegs.at2500 (e : EeeRegs) : Prop := e.a6d4.getLsbD 0 = true ∧ e.a6d0.getLsbD 0 = true

theorem getLsbD_modeBit {n : ℕ} (hn : n < 32) (i : ℕ) : (modeBit n).getLsbD i = decide (n = i) := by
  rw [modeBit, BitVec.getLsbD_twoPow, decide_eq_true hn, Bool.true_and]

theorem getLsbD_addMode (v : BitVec 16) (bit : ℕ) {n : ℕ} (hn : n < 32) (adv : BitVec 32) (i : ℕ) :
    (addMode v bit n adv).getLsbD i = (adv.getLsbD i || (v.getLsbD bit && decide (n = i))) := by
  unfold addMode
  split
  case isTrue h => rw [BitVec.getLsbD_or, getLsbD_modeBit hn, h, Bool.true_and]
  case isFalse h => rw [eq_false_of_ne_true h, Bool.false_and, Bool.or_false]

theorem ne_zero_iff_getLsbD (x : BitVec 32) : x ≠ 0 ↔ ∃ i, x.getLsbD i = true := by
  constructor
  · intro hne
    by_contra hall
    refine hne (BitVec.eq_of_getLsbD_eq fun i _ => ?_)
    rw [eq_false_of_ne_true fun hi => hall ⟨i, hi⟩]
    exact BitVec.getLsbD_zero.symm
  · intro ⟨i, hi⟩ hzero
    rw [hzero] at hi
    exact Bool.false_ne_true (BitVec.getLsbD_zero.symm.trans hi)

/-- The speeds at which the driver takes EEE into account. -/
theorem getLsbD_eeeSupported (mcfg : Mcfg) (i : ℕ) : (eeeSupported mcfg).getLsbD i =
    (decide (3 = i) || decide (5 = i) ||
      (!beforeM4 mcfg && ((decide (2500 ≤ hwSuppMaxPhyLinkSpeed mcfg) && decide (15 = i)) ||
        (decide (5000 ≤ hwSuppMaxPhyLinkSpeed mcfg) && decide (16 = i))))) := by
  have hbits : ∀ (n : ℕ) (x : BitVec 32),
      (linkmodeSetBit n x).getLsbD i = (x.getLsbD i || decide (n % 32 = i)) := by
    intro n x
    rw [linkmodeSetBit, BitVec.getLsbD_or, getLsbD_modeBit (Nat.mod_lt n (by decide))]
  unfold eeeSupported
  cases mcfg <;> simp [beforeM4, hwSuppMaxPhyLinkSpeed, hbits, Bool.or_assoc]

/-- **EEE counts as active** when both ends have it at 100 Mbit/s or 1 Gbit/s, or, from the third variant on,
at 2.5 Gbit/s on a chip with that speed. -/
theorem eeeActive_iff (mcfg : Mcfg) (e : EeeRegs) :
    eeeActive mcfg e = true ↔
      e.slow ∨ (beforeM4 mcfg = false ∧ 2500 ≤ hwSuppMaxPhyLinkSpeed mcfg ∧ e.at2500) := by
  have hadv : ∀ (v w : BitVec 16) (i : ℕ), (addMode w 0 15 (mmdEeeAdvToEthtoolAdv v)).getLsbD i =
      ((v.getLsbD 1 && decide (3 = i)) || (v.getLsbD 2 && decide (5 = i)) || (v.getLsbD 3 && decide (12 = i)) ||
        (v.getLsbD 4 && decide (17 = i)) || (v.getLsbD 5 && decide (18 = i)) ||
        (v.getLsbD 6 && decide (19 = i)) || (w.getLsbD 0 && decide (15 = i))) := by
    intro v w i
    simp only [mmdEeeAdvToEthtoolAdv, getLsbD_addMode _ _ (show (3 : ℕ) < 32 by decide),
      getLsbD_addMode _ _ (show (5 : ℕ) < 32 by decide), getLsbD_addMode _ _ (show (12 : ℕ) < 32 by decide),
      getLsbD_addMode _ _ (show (17 : ℕ) < 32 by decide), getLsbD_addMode _ _ (show (18 : ℕ) < 32 by decide),
      getLsbD_addMode _ _ (show (19 : ℕ) < 32 by decide), getLsbD_addMode _ _ (show (15 : ℕ) < 32 by decide)]
    simp
  simp only [eeeActive, bne_iff_ne, ne_zero_iff_getLsbD, BitVec.getLsbD_and, hadv, getLsbD_eeeSupported]
  unfold EeeRegs.slow EeeRegs.at2500
  constructor
  · intro ⟨i, hi⟩
    rw [Bool.and_eq_true, Bool.and_eq_true] at hi
    obtain ⟨⟨hsup, hadv⟩, hlp⟩ := hi
    simp only [Bool.or_eq_true, Bool.and_eq_true, decide_eq_true_eq, Bool.not_eq_true'] at hsup
    rcases hsup with (rfl | rfl) | ⟨hm, ⟨hspeed, rfl⟩ | ⟨hspeed, rfl⟩⟩
    · exact .inl (.inl ⟨by simpa using hadv, by simpa using hlp⟩)
    · exact .inl (.inr ⟨by simpa using hadv, by simpa using hlp⟩)
    · exact .inr ⟨hm, hspeed, by simpa using hadv, by simpa using hlp⟩
    · exact absurd hadv (by simp)
  · intro h
    rcases h with (⟨h, h'⟩ | ⟨h, h'⟩) | ⟨hm, hspeed, h, h'⟩
    · exact ⟨3, by simp [h, h']⟩
    · exact ⟨5, by simp [h, h']⟩
    · exact ⟨15, by simp [h, h', hm, hspeed]⟩

/-! ### The row of a link -/

/-- The row of the medium table that `setLinkUp` picks. -/
def linkUpIndex (spd : ℕ) (duplex : Duplex) (fc : FcMode) (eee : Bool) : MediumIndex :=
  if spd = 10000 then
    if fc = .full then if eee then .m10000FDFCEEE else .m10000FDFC
    else if eee then .m10000FDEEE else .m10000FD
  else if spd = 5000 then
    if fc = .full then if eee then .m5000FDFCEEE else .m5000FDFC
    else if eee then .m5000FDEEE else .m5000FD
  else if spd = 2500 then
    if fc = .full then if eee then .m2500FDFCEEE else .m2500FDFC
    else if eee then .m2500FDEEE else .m2500FD
  else if spd = 1000 then
    if fc = .full then if eee then .m1000FDFCEEE else .m1000FDFC
    else if eee then .m1000FDEEE else .m1000FD
  else if spd = 100 then
    if duplex = .full then
      if fc = .full then if eee then .m100FDFCEEE else .m100FDFC
      else if eee then .m100FDEEE else .m100FD
    else .m100HD
  else if duplex = .full then .m10FD else .m10HD

/-- The speed, in bit/s, that goes with it. -/
def mediumSpeed (spd : ℕ) : ℕ :=
  if spd = 10000 then 10000 * 1000000
  else if spd = 5000 then 5000 * 1000000
  else if spd = 2500 then 2500 * 1000000
  else if spd = 1000 then 1000 * 1000000
  else if spd = 100 then 100 * 1000000
  else 10 * 1000000

/-- How many rows `setupMediumDict` publishes. -/
def mediumLimit (mcfg : Mcfg) : ℕ :=
  if 10000 ≤ hwSuppMaxPhyLinkSpeed mcfg then 24
  else if 5000 ≤ hwSuppMaxPhyLinkSpeed mcfg then MediumIndex.m10000FD.ctorIdx
  else if 2500 ≤ hwSuppMaxPhyLinkSpeed mcfg then
    if beforeM4 mcfg then MediumIndex.m2500FDEEE.ctorIdx else MediumIndex.m5000FD.ctorIdx
  else MediumIndex.m2500FD.ctorIdx

/-- `mediumTable` has a medium in this row. -/
def Published (mcfg : Mcfg) (i : MediumIndex) : Prop := i.ctorIdx < mediumLimit mcfg

instance (mcfg : Mcfg) (i : MediumIndex) : Decidable (Published mcfg i) := inferInstanceAs (Decidable (_ < _))

/-- What `setLinkUp` hands to `setLinkStatus`. -/
structure Report where
  index : MediumIndex
  speed : ℕ
deriving DecidableEq, Repr

/-- The report of a link that is up. -/
def linkUpReport (mcfg : Mcfg) (r : LinkReading) (e : EeeRegs) : Report :=
  ⟨linkUpIndex r.medium.1 r.medium.2 r.fc (eeeActive mcfg e), mediumSpeed r.medium.1⟩

/-- A row says of a link: its speed and duplex mode; and flow control and EEE, which only links in full
duplex mode from 100 Mbit/s on have rows for. -/
structure Row (m : Medium) (spd : ℕ) (duplex : Duplex) (fc : FcMode) (eee : Bool) : Prop where
  speed_eq : m.speed = spd
  duplex_eq : m.duplex = duplex
  fc_iff : m.fc = .full ↔ fc = .full ∧ 100 ≤ spd ∧ duplex = .full
  eee_iff : m.eee = true ↔ eee = true ∧ 100 ≤ spd ∧ duplex = .full

/-- The speeds and duplex modes PHYstatus can show. -/
theorem medium_cases (r : LinkReading) :
    (r.medium.2 = .full ∧ (r.medium.1 = 10000 ∨ r.medium.1 = 5000 ∨ r.medium.1 = 2500 ∨ r.medium.1 = 1000)) ∨
      r.medium.1 = 100 ∨ r.medium.1 = 10 := by
  unfold LinkReading.medium
  repeat' split
  all_goals simp

/-- **The row picked says what was read.** -/
theorem row_linkUpIndex (mcfg : Mcfg) (r : LinkReading) (eee : Bool) :
    Row (mediumArray mcfg (linkUpIndex r.medium.1 r.medium.2 r.fc eee)) r.medium.1 r.medium.2 r.fc eee := by
  have hfc : r.fc = .full ∨ r.fc = .none := by
    unfold LinkReading.fc
    split
    · exact .inl rfl
    · exact .inr rfl
  generalize r.fc = fc at hfc ⊢
  have hcases := medium_cases r
  generalize r.medium.1 = spd at hcases ⊢
  generalize r.medium.2 = duplex at hcases ⊢
  rcases hcases with ⟨rfl, hspd⟩ | hspd
  · rcases hspd with rfl | rfl | rfl | rfl <;> rcases hfc with rfl | rfl <;> cases eee <;>
      exact ⟨rfl, rfl, by simp [linkUpIndex, mediumArray], by simp [linkUpIndex, mediumArray]⟩
  · rcases hspd with rfl | rfl <;> cases duplex <;> rcases hfc with rfl | rfl <;> cases eee <;>
      exact ⟨rfl, rfl, by simp [linkUpIndex, mediumArray], by simp [linkUpIndex, mediumArray]⟩

theorem mediumSpeed_medium (r : LinkReading) : mediumSpeed r.medium.1 = r.medium.1 * 1000000 := by
  rcases medium_cases r with ⟨-, h | h | h | h⟩ | h | h <;> rw [h] <;> rfl

/-- Where the row picked stands in the table. -/
theorem ctorIdx_linkUpIndex (spd : ℕ) (duplex : Duplex) (fc : FcMode) (eee : Bool) :
    (linkUpIndex spd duplex fc eee).ctorIdx < 24 ∧
      (spd ≠ 10000 → (linkUpIndex spd duplex fc eee).ctorIdx < 20) ∧
      (spd = 2500 → (linkUpIndex spd duplex fc eee).ctorIdx < 16 ∧
        ((linkUpIndex spd duplex fc eee).ctorIdx < 14 ↔ eee = false)) ∧
      (spd ≤ 1000 → (linkUpIndex spd duplex fc eee).ctorIdx < 12) := by
  unfold linkUpIndex
  repeat' split
  all_goals (subst_vars; simp_all [MediumIndex.ctorIdx])

/-- How many rows are published, by the speed of the chip. -/
theorem mediumLimit_cases (mcfg : Mcfg) :
    (beforeM4 mcfg = true ∧ hwSuppMaxPhyLinkSpeed mcfg = 2500 ∧ mediumLimit mcfg = 14) ∨
      (beforeM4 mcfg = false ∧
        ((hwSuppMaxPhyLinkSpeed mcfg = 10000 ∧ mediumLimit mcfg = 24) ∨
          (hwSuppMaxPhyLinkSpeed mcfg = 5000 ∧ mediumLimit mcfg = 20) ∨
          (hwSuppMaxPhyLinkSpeed mcfg = 2500 ∧ mediumLimit mcfg = 16) ∨
          (hwSuppMaxPhyLinkSpeed mcfg = 1000 ∧ mediumLimit mcfg = 12))) := by
  cases mcfg <;> decide

/-- Of the speeds of a chip every row is published, but for EEE at 2.5 Gbit/s on the first two variants. -/
theorem published_linkUpIndex (mcfg : Mcfg) (r : LinkReading) (hspeed : r.medium.1 ≤ hwSuppMaxPhyLinkSpeed mcfg)
    (eee : Bool) : Published mcfg (linkUpIndex r.medium.1 r.medium.2 r.fc eee) ↔
      ¬ (beforeM4 mcfg = true ∧ r.medium.1 = 2500 ∧ eee = true) := by
  obtain ⟨hall, hbelow10000, hat2500, hupto1000⟩ := ctorIdx_linkUpIndex r.medium.1 r.medium.2 r.fc eee
  have hspeeds : r.medium.1 = 10000 ∨ r.medium.1 = 5000 ∨ r.medium.1 = 2500 ∨ r.medium.1 ≤ 1000 := by
    have := medium_cases r
    omega
  rw [Published]
  generalize (linkUpIndex r.medium.1 r.medium.2 r.fc eee).ctorIdx = i at *
  have hchip := mediumLimit_cases mcfg
  cases eee <;> cases hm : beforeM4 mcfg <;>
    simp only [hm, Bool.false_eq_true, reduceCtorEq, false_and, and_false, true_and, and_true, or_false, false_or,
      not_false_eq_true, iff_true, iff_false] at hchip hat2500 ⊢ <;> omega

/-- **The report of a link**: the row has the speed and the duplex mode PHYstatus says; in full duplex mode from
100 Mbit/s on it has flow control where PHYstatus says so and EEE where both ends have EEE at some speed, and
otherwise neither.  It has a medium unless the link is one of 2.5 Gbit/s on a chip of the first two variants and
both ends have EEE at 100 Mbit/s or 1 Gbit/s. -/
theorem link_report (mcfg : Mcfg) (r : LinkReading) (e : EeeRegs)
    (hspeed : r.medium.1 ≤ hwSuppMaxPhyLinkSpeed mcfg) :
    let rep := linkUpReport mcfg r e
    Row (mediumArray mcfg rep.index) r.medium.1 r.medium.2 r.fc (eeeActive mcfg e) ∧
      rep.speed = (mediumArray mcfg rep.index).speed * 1000000 ∧
      (eeeActive mcfg e = true ↔
        e.slow ∨ (beforeM4 mcfg = false ∧ 2500 ≤ hwSuppMaxPhyLinkSpeed mcfg ∧ e.at2500)) ∧
      (Published mcfg rep.index ↔ ¬ (beforeM4 mcfg = true ∧ r.medium.1 = 2500 ∧ e.slow)) := by
  intro rep
  have hrow : Row (mediumArray mcfg rep.index) _ _ _ _ := row_linkUpIndex mcfg r (eeeActive mcfg e)
  have heee := eeeActive_iff mcfg e
  refine ⟨hrow, ?_, heee, ?_⟩
  · rw [hrow.speed_eq]
    exact mediumSpeed_medium r
  · refine (published_linkUpIndex mcfg r hspeed _).trans (not_congr (and_congr_right fun hm => ?_))
    refine and_congr_right fun _ => heee.trans (or_iff_left fun h => ?_)
    exact Bool.false_ne_true (h.1.symm.trans hm)

/-- A link of 2.5 Gbit/s on the first variant, both ends with EEE at 1 Gbit/s: reported as one with EEE, in a
row without a medium. -/
theorem link_report_first :
    let r : LinkReading := ⟨0x403, 0x3, ⟨0, 0, 0⟩⟩
    let e : EeeRegs := ⟨0x4, 0, 0x4, 0⟩
    r.medium.1 ≤ hwSuppMaxPhyLinkSpeed .m2 ∧ (linkUpReport .m2 r e).index = .m2500FDEEE ∧
      ¬ Published .m2 (linkUpReport .m2 r e).index := by
  intro r e
  have hspeed : r.medium.1 ≤ hwSuppMaxPhyLinkSpeed .m2 := by decide
  obtain ⟨-, -, -, hpublished⟩ := link_report .m2 r e hspeed
  refine ⟨hspeed, by decide, fun h => hpublished.mp h ⟨by decide, by decide, .inr ?_⟩⟩
  decide

end Rtl812x.Kext.LinkMedium
