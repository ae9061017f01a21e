import Rtl812x.Lib.Runs
import Rtl812x.Dext.RxRun

/-!
# Restarting the receive engine after a reset

A reset moves the chip's receive pointer to descriptor 0.  When the engine is started again, the
driver must be at descriptor 0 too and every descriptor that has a packet must be armed
(`StartSound`), or chip and driver wait on each other.  `rxStarts` records each such start.

`rxRingRearm` brings this about, but only the link-down branch and the stall recovery run it.  A
link-up reading resets the chip through `rtl812xHwConfig` and moves `rxNextDescIndex` to 0 without
re-arming, so a frame that is completed and not yet serviced stays behind
(`linkUp_leaves_completed_descriptor`); enabling an enabled interface does the same.

* `RxClean`, `RxRun` — no descriptor is completed; those that are lie in one run from the index on;
* `rxRingService_clean` — a service of such a run leaves the ring clean;
* `rxStarts_sound` — **in every run that restarts the engine with a clean ring, every start is
  sound.**
-/

namespace Rtl812x.Dext

open Runs Circular

/-! ### The property -/

/-- Driver and chip start at descriptor 0, on an armed ring. -/
def StartSound (st : RxStart) : Prop :=
  st.rxNextDescIndex = 0 ∧
    ∀ i < kNumRxDesc, st.rxPkt i ≠ none → (st.rxRing i).own = true

/-! ### Steps -/

/-- A step of a run; the framework's exchange of packets is part of it. -/
inductive IrqOp where
  | enable (on : Bool) (phy phy' : UInt32)
  | interrupt (status : UInt32) (clo : ℕ) (phy phy' : UInt32)
  | statsTimer
  | chipComplete (i : ℕ) (opts1 opts2 : UInt32)
  | dequeue (packets : List ℕ)
  | enqueue (arrayCapacity : ℕ)

def irqStep (c : Config) (d : Driver) : IrqOp → Driver
  | .enable on phy phy' => setInterfaceEnable c on phy phy' d
  | .interrupt status clo phy phy' => interruptOccurred c status clo phy phy' d
  | .statsTimer => statsTimerOccurred c d
  | .chipComplete i opts1 opts2 => { d with rx := chipComplete i opts1 opts2 d.rx }
  | .dequeue packets => { d with rx := (rxDequeueAction packets d.rx).2 }
  | .enqueue capacity => { d with rx := (rxEnqueueAction capacity d.rx).2 }

/-- The chip completes only descriptors it owns while its engine is enabled. -/
def IrqPromise (d : Driver) : IrqOp → Prop
  | .chipComplete i opts1 _ =>
    d.rxOn ∧ i < kNumRxDesc ∧ (d.rx.rxRing i).own = true ∧ opts1 &&& descOwn = 0
  | _ => True

/-- A descriptor with a packet that the chip has completed. -/
def RxSide.completed (s : RxSide) (i : ℕ) : Prop := s.rxPkt i ≠ none ∧ (s.rxRing i).own = false

/-- No descriptor is completed. -/
def RxClean (s : RxSide) : Prop := ∀ i < kNumRxDesc, ¬ s.completed i

/-- The completed descriptors are the first `n` from the receive index on. -/
def RxRun (n : ℕ) (s : RxSide) : Prop :=
  ∀ i < kNumRxDesc, s.completed i ↔ InWindow kNumRxDesc s.rxNextDescIndex n i

/-- The engine is restarted only with a clean ring, or with one that the same interrupt has just
serviced to the end. -/
def RestartQuiet (d : Driver) : IrqOp → Prop
  | .enable on _ _ => on = true → RxClean d.rx
  | .interrupt status _ phy _ =>
    status ≠ 0xFFFFFFFF → d.interfaceEnabled = true → status &&& linkChg ≠ 0 →
      phyLinkUp phy = true →
        if status &&& (rxOK ||| rxDescUnavail) ≠ 0 then ∃ n ≤ kNumRxDesc, RxRun n d.rx
        else RxClean d.rx
  | _ => True

/-! ### Clean rings -/

variable {iova : ℕ → ℕ} {outcome : ℕ → Option ℕ} {s s' : RxSide} {p n : ℕ}

theorem RxClean.congr (h : RxClean s) (hpkt : s'.rxPkt = s.rxPkt) (hring : s'.rxRing = s.rxRing) :
    RxClean s' := by
  intro i hi
  rw [RxSide.completed, hpkt, hring]
  exact h i hi

theorem rxArm_clean (h : RxClean s) (i p : ℕ) : RxClean (rxArm iova i p s) := by
  rintro j hj ⟨hfull, hown⟩
  simp only [rxArm] at hfull hown
  by_cases hji : j = i
  · rw [hji, Function.update_self] at hown
    have harm := rxArmWord_own i
    simp only [RxDesc.own, bne_eq_false_iff_eq] at hown
    exact harm hown
  · rw [Function.update_of_ne hji] at hfull hown
    exact h j hj ⟨hfull, hown⟩

theorem RxClean.rxRingRefill (h : RxClean s) : RxClean (rxRingRefill iova outcome s).2 := by
  rw [Dext.rxRingRefill]
  refine rxRefillLoop_induction ?_ ?_ mem_range_lt h
  · intro r hr _
    obtain ⟨hpkt, hring, -⟩ := rxTake_frame outcome r
    exact hr.congr hpkt hring
  · intro r i p _ hr _ _
    obtain ⟨hpkt, hring, -⟩ := rxTake_frame outcome r
    exact rxArm_clean (hr.congr hpkt hring) i p

theorem RxClean.rxRequestDequeue (h : RxClean s) : RxClean (rxRequestDequeue s) := h.congr rfl rfl

theorem RxClean.restart (h : RxClean s) : RxClean { s with rxNextDescIndex := 0 } := h.congr rfl rfl

/-- Re-arming makes every ring clean. -/
theorem rxRingRearm_clean (iova : ℕ → ℕ) (outcome : ℕ → Option ℕ) (s : RxSide) :
    RxClean (rxRingRearm iova outcome s) := by
  apply RxClean.rxRingRefill
  rintro i hi ⟨hfull, hown⟩
  simp only [rxRearmSlots] at hfull hown
  rw [if_pos ⟨hi, hfull⟩] at hown
  simp only [RxDesc.own, bne_eq_false_iff_eq] at hown
  exact rxArmWord_own i hown

/-- Dropping the ring's packets makes every ring clean. -/
theorem rxRingDrop_clean (s : RxSide) : RxClean (rxRingDrop s) := by
  rintro i hi ⟨hfull, -⟩
  simp [rxRingDrop, hi] at hfull

/-! ### Servicing a run -/

/-- A serviced descriptor is not completed any more; the others are as before. -/
theorem rxServiceOne_completed (p : ℕ) (s : RxSide) (i : ℕ) :
    (rxServiceOne p s).completed i ↔ s.completed i ∧ i ≠ s.rxNextDescIndex := by
  by_cases hi : i = s.rxNextDescIndex
  · subst hi
    simp only [ne_eq, not_true_eq_false, and_false, iff_false]
    rintro ⟨hfull, hown⟩
    unfold rxServiceOne at hfull hown
    split at hown
    · have harm := rxArmWord_own s.rxNextDescIndex
      simp only [rxAdvance, rxRecycle, Function.update_self, RxDesc.own,
        bne_eq_false_iff_eq] at hown
      exact harm hown
    · rename_i hbad
      simp [hbad, rxAdvance, rxDeliver, rxComplete] at hfull
  · simp only [ne_eq, hi, not_false_eq_true, and_true]
    unfold rxServiceOne
    split
    · simp [RxSide.completed, rxAdvance, rxRecycle, Function.update_of_ne hi]
    · simp [RxSide.completed, rxAdvance, rxDeliver, rxComplete, Function.update_of_ne hi]

/-- Servicing the first descriptor of a run leaves a shorter run. -/
theorem RxRun.rxServiceOne (h : RxRun (n + 1) s) (hnext : s.rxNextDescIndex < kNumRxDesc)
    (hn : n < kNumRxDesc) (p : ℕ) : RxRun n (rxServiceOne p s) := by
  intro i hi
  rw [rxServiceOne_completed, h i hi, rxServiceOne_next, inWindow_succ_iff hnext]
  have hfirst := first_not_inWindow hnext hn
  constructor
  · rintro ⟨rfl | hin, hne⟩
    · exact absurd rfl hne
    · exact hin
  · intro hin
    refine ⟨Or.inr hin, ?_⟩
    rintro rfl
    exact hfirst hin

/-- **A service of a run leaves the ring clean.** -/
theorem RxRun.rxServiceLoop {budget : ℕ} {delivered : Bool} (h : RxRun n s)
    (hnext : s.rxNextDescIndex < kNumRxDesc) (hn : n ≤ kNumRxDesc) (hbudget : n ≤ budget) :
    RxClean (rxServiceLoop budget delivered s).2 := by
  induction budget generalizing n s delivered with
  | zero =>
      obtain rfl : n = 0 := by omega
      intro i hi hc
      exact not_inWindow_zero ((h i hi).mp hc)
  | succ budget ih =>
      have hhead := h s.rxNextDescIndex hnext
      simp only [Dext.rxServiceLoop]
      cases n with
      | zero =>
          have hclean : RxClean s := fun i hi hc => not_inWindow_zero ((h i hi).mp hc)
          split
          · exact hclean
          · rename_i hown
            split
            · exact hclean
            · rename_i p hp
              exact absurd ⟨by simp [hp], by simpa using hown⟩ (hclean _ hnext)
      | succ n =>
          obtain ⟨hfull, hown⟩ := hhead.mpr ⟨0, by omega, slot_zero hnext⟩
          obtain ⟨p, hp⟩ := Option.ne_none_iff_exists'.mp hfull
          simp only [hown, hp, Bool.false_eq_true, if_false]
          refine ih (h.rxServiceOne hnext (by omega) p) ?_ (by omega) (by omega)
          rw [rxServiceOne_next]
          exact slot_lt kNumRxDesc_pos _ _

theorem rxRingService_clean (h : RxRun n s) (hnext : s.rxNextDescIndex < kNumRxDesc)
    (hn : n ≤ kNumRxDesc) : RxClean (rxRingService iova outcome s) := by
  have hrefill : RxClean (rxRingRefill iova outcome (rxServiceLoop kNumRxDesc false s).2).2 :=
    (h.rxServiceLoop hnext hn hn).rxRingRefill
  have hann : ∀ (b : Bool) (r : RxSide), RxClean r → RxClean (rxAnnounce b r) := by
    intro b r hr
    cases b with
    | false => exact hr
    | true => exact hr.congr rfl rfl
  exact hann _ _ hrefill

/-! ### Chip writes and starts -/

/-- Every start so far was sound, and a chip that was reset has its engine off. -/
structure StartsInv (d : Driver) : Prop where
  sound : ∀ st ∈ d.rxStarts, StartSound st
  quiesced : d.chip.wasReset = true → ¬ d.rxOn
  next_lt : d.rx.rxNextDescIndex < kNumRxDesc

variable {c : Config} {d d' : Driver} {phy phy' : UInt32}

theorem StartsInv.init : StartsInv Driver.init where
  sound _ h := absurd h (List.not_mem_nil)
  quiesced _ := by decide
  next_lt := kNumRxDesc_pos

/-- Only the record, ChipCmd, the reset flag and the receive index matter. -/
theorem StartsInv.congr (h : StartsInv d) (hstarts : d'.rxStarts = d.rxStarts)
    (hreset : d'.chip.wasReset = d.chip.wasReset) (hcmd : d'.chip.chipCmd = d.chip.chipCmd)
    (hnext : d'.rx.rxNextDescIndex < kNumRxDesc) : StartsInv d' where
  sound := by rw [hstarts]; exact h.sound
  quiesced := by rw [hreset, Driver.rxOn, hcmd]; exact h.quiesced
  next_lt := hnext

theorem RxClean.startSound (h : RxClean s) (hnext : s.rxNextDescIndex = 0) :
    StartSound ⟨s.rxNextDescIndex, s.rxPkt, s.rxRing⟩ := by
  refine ⟨hnext, ?_⟩
  intro i hi hfull
  cases hown : (s.rxRing i).own with
  | true => rfl
  | false => exact absurd ⟨hfull, hown⟩ (h i hi)

/-- **A write of ChipCmd** may start the engine after a reset only on a clean ring at index 0. -/
theorem StartsInv.writeChipCmd (h : StartsInv d) (v : UInt8)
    (hstart : v &&& cmdRxEnb ≠ 0 → d.chip.wasReset = true →
      d.rx.rxNextDescIndex = 0 ∧ RxClean d.rx) : StartsInv (writeChipCmd v d) := by
  unfold Dext.writeChipCmd
  split
  · rename_i hv
    obtain ⟨hnext, hclean⟩ := hstart hv.1 hv.2
    refine ⟨?_, ?_, h.next_lt⟩
    · intro st hst
      rcases List.mem_cons.mp hst with rfl | hst
      · exact hclean.startSound hnext
      · exact h.sound st hst
    · intro hreset
      cases hreset
  · rename_i hv
    refine ⟨h.sound, ?_, h.next_lt⟩
    intro hreset hon
    exact hv ⟨hon, hreset⟩

theorem stopReq_keeps_rxEnb (x : UInt8) : (x ||| stopReq) &&& cmdRxEnb = x &&& cmdRxEnb := by
  apply UInt8.toBitVec_inj.mp
  rw [UInt8.toBitVec_and, UInt8.toBitVec_or, BitVec.and_comm, BitVec.and_or_distrib_left,
    show cmdRxEnb.toBitVec &&& stopReq.toBitVec = 0#8 by decide, BitVec.or_zero, BitVec.and_comm,
    UInt8.toBitVec_and]

theorem engineBits_keep_rxEnb (x : UInt8) :
    (x &&& (cmdTxEnb ||| cmdRxEnb)) &&& cmdRxEnb = x &&& cmdRxEnb := by
  rw [UInt8.and_assoc, show (cmdTxEnb ||| cmdRxEnb) &&& cmdRxEnb = cmdRxEnb by decide]

/-- A reset starts nothing: while it stops the engine it writes `CmdRxEnb` only if it was on. -/
theorem StartsInv.nicReset (h : StartsInv d) : StartsInv (nicReset d) := by
  have hstop : StartsInv (Dext.writeChipCmd (d.chip.chipCmd ||| stopReq) d) := by
    apply h.writeChipCmd
    intro hv hreset
    rw [stopReq_keeps_rxEnb] at hv
    exact absurd hv (h.quiesced hreset)
  have hclear := hstop.writeChipCmd
    ((Dext.writeChipCmd (d.chip.chipCmd ||| stopReq) d).chip.chipCmd &&& (cmdTxEnb ||| cmdRxEnb))
    fun hv hreset => by
      rw [engineBits_keep_rxEnb] at hv
      exact absurd hv (hstop.quiesced hreset)
  refine ⟨hclear.sound, ?_, hclear.next_lt⟩
  intro _
  show ¬ ((0 : UInt8) &&& cmdRxEnb ≠ 0)
  decide

theorem StartsInv.hwReset (h : StartsInv d) : StartsInv (hwReset d) :=
  StartsInv.nicReset (h.congr rfl rfl rfl h.next_lt)

theorem StartsInv.rtl812xHwConfig (h : StartsInv d) : StartsInv (rtl812xHwConfig d) :=
  h.nicReset.congr rfl rfl rfl kNumRxDesc_pos

/-- A link-up restarts the engine on the ring as it is. -/
theorem StartsInv.linkOn (h : StartsInv d) (hclean : RxClean d.rx) : StartsInv (linkOn c phy d) := by
  have hstart : StartsInv (Dext.writeChipCmd (cmdTxEnb ||| cmdRxEnb) (Dext.rtl812xHwConfig d)) := by
    apply h.rtl812xHwConfig.writeChipCmd
    intro _ _
    rw [rtl812xHwConfig_rx]
    exact ⟨rfl, hclean.congr rfl rfl⟩
  simp only [Dext.linkOn]
  split
  · exact hstart.congr rfl rfl rfl hstart.next_lt
  · exact hstart

theorem StartsInv.linkOff (h : StartsInv d) : StartsInv (linkOff c d) := by
  have hreset : StartsInv (Dext.hwReset { d with linkUp := false }) :=
    StartsInv.hwReset (h.congr rfl rfl rfl h.next_lt)
  refine hreset.congr rfl rfl rfl ?_
  rw [linkOff_rx, rxRingRearm_next]
  exact kNumRxDesc_pos

theorem StartsInv.updateLinkStatus (h : StartsInv d) (hclean : phyLinkUp phy = true → RxClean d.rx) :
    StartsInv (updateLinkStatus c phy phy' d) := by
  unfold Dext.updateLinkStatus
  split
  · exact h.linkOn (hclean ‹_›)
  · split
    · split
      · exact h
      · exact h.linkOff
    · exact h

/-! ### Enabling and disabling -/

theorem startEngines_clean (h : RxClean d.rx) : RxClean (startEngines c d).rx := by
  rw [startEngines_rx]
  exact h.restart.rxRingRefill.rxRequestDequeue

theorem StartsInv.rtl812xEnable (h : StartsInv d) : StartsInv (rtl812xEnable d) := by
  have hmask : StartsInv { d with intrMask := intrMaskRxTx } := h.congr rfl rfl rfl h.next_lt
  exact hmask.nicReset.hwReset.rtl812xHwConfig

/-- The ring an enable has filled is clean and starts at index 0. -/
theorem armRing_rtl812xEnable (hclean : RxClean d.rx) :
    (armRing c (rtl812xEnable d)).rx.rxNextDescIndex = 0 ∧
      RxClean (armRing c (rtl812xEnable d)).rx := by
  have hrx : (armRing c (rtl812xEnable d)).rx = rxRequestDequeue
      (rxRingRefill c.iova c.outcome { d.rx with rxNextDescIndex := 0 }).2 := by
    simp [armRing, rtl812xEnable]
  rw [hrx]
  refine ⟨?_, hclean.restart.rxRingRefill.rxRequestDequeue⟩
  rw [rxRequestDequeue_next, rxRingRefill_next]

theorem StartsInv.startEngines (h : StartsInv d) (hclean : RxClean d.rx) :
    StartsInv (startEngines c d) := by
  obtain ⟨hnext, hready⟩ := armRing_rtl812xEnable (c := c) hclean
  have harmed : StartsInv (armRing c (Dext.rtl812xEnable d)) :=
    h.rtl812xEnable.congr rfl rfl rfl (by rw [hnext]; exact kNumRxDesc_pos)
  have hstart := harmed.writeChipCmd (cmdTxEnb ||| cmdRxEnb) fun _ _ => ⟨hnext, hready⟩
  exact hstart.congr rfl rfl rfl hstart.next_lt

theorem StartsInv.setInterfaceEnable (h : StartsInv d) (on : Bool)
    (hclean : on = true → RxClean d.rx) : StartsInv (setInterfaceEnable c on phy phy' d) := by
  cases on with
  | true =>
      have hlink : StartsInv (Dext.updateLinkStatus c phy phy' (Dext.startEngines c d)) :=
        (h.startEngines (hclean rfl)).updateLinkStatus fun _ => startEngines_clean (hclean rfl)
      exact hlink.congr rfl rfl rfl hlink.next_lt
  | false =>
      have hoff : StartsInv (rtl812xDisable { d with interfaceEnabled := false, linkUp := false }) :=
        StartsInv.hwReset (h.congr rfl rfl rfl h.next_lt)
      exact hoff.congr rfl rfl rfl hoff.next_lt

/-! ### Interrupts and the statistics timer -/

theorem StartsInv.irqRx {status : UInt32} (h : StartsInv d) : StartsInv (irqRx c status d) := by
  unfold Dext.irqRx
  split
  · exact h.congr rfl rfl rfl (rxRingService_next_lt _ _ h.next_lt)
  · exact h

theorem StartsInv.irqTx {status : UInt32} {clo : ℕ} (h : StartsInv d) :
    StartsInv (irqTx c status clo d) := by
  unfold Dext.irqTx
  split
  · exact h.congr rfl rfl rfl h.next_lt
  · exact h

theorem StartsInv.irqMitigate {status : UInt32} (h : StartsInv d) :
    StartsInv (irqMitigate status d) := by
  unfold Dext.irqMitigate
  split
  · exact h.congr rfl rfl rfl h.next_lt
  · split
    · exact h.congr rfl rfl rfl h.next_lt
    · exact h

theorem StartsInv.irqLink {status : UInt32} (h : StartsInv d)
    (hclean : d.interfaceEnabled = true → status &&& linkChg ≠ 0 → phyLinkUp phy = true →
      RxClean d.rx) : StartsInv (irqLink c status phy phy' d) := by
  unfold Dext.irqLink
  split
  · rename_i hlink
    have hup : StartsInv (Dext.updateLinkStatus c phy phy' d) :=
      h.updateLinkStatus (hclean hlink.2 hlink.1)
    exact hup.congr rfl rfl rfl hup.next_lt
  · exact h

/-- The receive side after the datapath part of an interrupt. -/
theorem irqData_rx (hen : d.interfaceEnabled = true) (status : UInt32) (clo : ℕ) :
    (irqData c status clo d).rx
      = if status &&& (rxOK ||| rxDescUnavail) ≠ 0 then rxRingService c.iova c.outcome d.rx
        else d.rx := by
  rw [irqData, if_pos hen, irqMitigate_rx, irqTx_rx, irqRx]
  split <;> rfl

theorem irqData_interfaceEnabled (c : Config) (status : UInt32) (clo : ℕ) (d : Driver) :
    (irqData c status clo d).interfaceEnabled = d.interfaceEnabled := by
  have hmit : ∀ d : Driver, (irqMitigate status d).interfaceEnabled = d.interfaceEnabled := by
    intro d
    unfold irqMitigate
    split
    · rfl
    · split <;> rfl
  have htx : ∀ d : Driver, (irqTx c status clo d).interfaceEnabled = d.interfaceEnabled := by
    intro d
    unfold irqTx
    split <;> rfl
  have hrx : (irqRx c status d).interfaceEnabled = d.interfaceEnabled := by
    unfold irqRx
    split <;> rfl
  unfold irqData
  split
  · rw [hmit, htx, hrx]
  · rfl

theorem StartsInv.irqData {status : UInt32} {clo : ℕ} (h : StartsInv d) :
    StartsInv (irqData c status clo d) := by
  unfold Dext.irqData
  split
  · exact h.irqRx.irqTx.irqMitigate
  · exact h

/-- **An interrupt restarts the engine soundly** when its service cleans the ring. -/
theorem StartsInv.interruptOccurred {status : UInt32} {clo : ℕ} (h : StartsInv d)
    (hquiet : RestartQuiet d (.interrupt status clo phy phy')) :
    StartsInv (interruptOccurred c status clo phy phy' d) := by
  simp only [Dext.interruptOccurred]
  split
  · exact h
  · rename_i hstatus
    rw [not_or] at hstatus
    have hack : StartsInv (irqAck status d) := h.congr rfl rfl rfl h.next_lt
    have hlink : StartsInv (Dext.irqLink c status phy phy'
        (Dext.irqData c status clo (irqAck status d))) := by
      apply hack.irqData.irqLink
      intro hen hchg hup
      rw [irqData_interfaceEnabled] at hen
      have hq := hquiet hstatus.1 hen hchg hup
      rw [irqData_rx hen]
      split
      · rename_i hbits
        rw [if_pos hbits] at hq
        obtain ⟨n, hn, hrun⟩ := hq
        exact rxRingService_clean hrun h.next_lt hn
      · rename_i hbits
        rwa [if_neg hbits] at hq
    exact hlink.congr rfl rfl rfl hlink.next_lt

theorem rearmRing_rx (c : Config) (d : Driver) :
    (rearmRing c d).rx.rxNextDescIndex = 0 ∧ RxClean (rearmRing c d).rx := by
  simp only [rearmRing]
  exact ⟨rxRingRearm_next c.iova c.outcome d.rx, rxRingRearm_clean c.iova c.outcome d.rx⟩

/-- A stall recovery re-arms the ring before it starts the engine. -/
theorem StartsInv.rxStallRecover (h : StartsInv d) : StartsInv (rxStallRecover c d) := by
  have hstop : StartsInv (Dext.writeChipCmd cmdTxEnb d) :=
    h.writeChipCmd cmdTxEnb fun hv => absurd hv (by decide)
  obtain ⟨hnext, hclean⟩ := rearmRing_rx c (Dext.writeChipCmd cmdTxEnb d)
  have hrearm : StartsInv (rearmRing c (Dext.writeChipCmd cmdTxEnb d)) :=
    hstop.congr rfl rfl rfl (by rw [hnext]; exact kNumRxDesc_pos)
  have hstart := hrearm.writeChipCmd (cmdTxEnb ||| cmdRxEnb) fun _ _ => ⟨hnext, hclean⟩
  exact hstart.congr rfl rfl rfl hstart.next_lt

theorem StartsInv.statsTimerOccurred (h : StartsInv d) : StartsInv (statsTimerOccurred c d) := by
  simp only [Dext.statsTimerOccurred]
  split
  · split
    · have hrec := h.rxStallRecover (c := c)
      exact hrec.congr rfl rfl rfl hrec.next_lt
    · exact h.congr rfl rfl rfl h.next_lt
  · exact h

/-! ### Runs -/

theorem StartsInv.irqStep (d : Driver) (op : IrqOp) (h : StartsInv d)
    (hop : IrqPromise d op ∧ RestartQuiet d op) : StartsInv (irqStep c d op) := by
  cases op with
  | enable on phy phy' => exact h.setInterfaceEnable on hop.2
  | interrupt status clo phy phy' => exact h.interruptOccurred hop.2
  | statsTimer => exact h.statsTimerOccurred
  | chipComplete i opts1 opts2 => exact h.congr rfl rfl rfl h.next_lt
  | dequeue packets =>
      refine h.congr rfl rfl rfl ?_
      show (rxDequeueLoop packets d.rx).2.rxNextDescIndex < kNumRxDesc
      rw [rxDequeueLoop_next]
      exact h.next_lt
  | enqueue capacity =>
      refine h.congr rfl rfl rfl ?_
      show (rxEnqueueAction capacity d.rx).2.rxNextDescIndex < kNumRxDesc
      rw [rxEnqueueAction_next]
      exact h.next_lt

/-- **Restarts after a reset are sound.**  In every run that handles link-up readings and enables
only on a ring without completed descriptors, or on one that the interrupt has just serviced,
each time the receive engine is started after a reset the driver is at descriptor 0 and every
descriptor with a packet is armed. -/
theorem rxStarts_sound (c : Config) (ops : List IrqOp)
    (hrun : Along (irqStep c) (fun d op => IrqPromise d op ∧ RestartQuiet d op) Driver.init ops) :
    ∀ st ∈ (exec (irqStep c) Driver.init ops).rxStarts, StartSound st :=
  (invariant_along StartsInv.irqStep StartsInv.init hrun).sound

/-- The link comes up, a frame arrives in descriptor 0, and a link-change interrupt reads the link
as up again before the frame is serviced. -/
def linkChangeBeforeService : List IrqOp :=
  [.enable true 0x4003 0, .chipComplete 0 0x30000040 0, .interrupt linkChg 0 0x4003 0]

/-- **A link-up reading leaves a completed descriptor behind**: the engine restarts at descriptor
0, which holds a packet and is not armed. -/
theorem linkUp_leaves_completed_descriptor :
    Along (irqStep shortPoolConfig) IrqPromise Driver.init linkChangeBeforeService ∧
      ¬ ∀ st ∈ (exec (irqStep shortPoolConfig) Driver.init linkChangeBeforeService).rxStarts,
        StartSound st := by
  refine ⟨⟨trivial, ⟨by decide, by decide, by decide +kernel, by decide⟩, trivial, trivial⟩, ?_⟩
  intro h
  have hany : (exec (irqStep shortPoolConfig) Driver.init linkChangeBeforeService).rxStarts.any
      (fun st => decide (st.rxPkt 0 ≠ none) && !(st.rxRing 0).own) = true := by
    decide +kernel
  obtain ⟨st, hst, hbad⟩ := List.any_eq_true.mp hany
  rw [Bool.and_eq_true, decide_eq_true_eq] at hbad
  have hown := (h st hst).2 0 (by decide) hbad.1
  rw [hown] at hbad
  exact absurd hbad.2 (by decide)

/-- An enable, a received frame, a disable and another enable. -/
def reenabled : List IrqOp :=
  [.enable true 0x4003 0, .chipComplete 0 0x30000040 0, .enable false 0 0, .enable true 0x4003 0]

/-- The engine is started four times after a reset, and soundly. -/
theorem rxStarts_sound_reenabled :
    (exec (irqStep shortPoolConfig) Driver.init reenabled).rxStarts.length = 4 ∧
      ∀ st ∈ (exec (irqStep shortPoolConfig) Driver.init reenabled).rxStarts, StartSound st := by
  refine ⟨by decide +kernel, rxStarts_sound shortPoolConfig _ ⟨⟨trivial, ?_⟩,
    ⟨⟨by decide, by decide, by decide +kernel, by decide⟩, trivial⟩, ⟨trivial, nofun⟩,
    ⟨trivial, ?_⟩, trivial⟩⟩
  · intro _ i _ hc
    exact hc.1 rfl
  · intro _
    exact rxRingDrop_clean _

end Rtl812x.Dext
