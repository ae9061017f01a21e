import Rtl812x.Kext.Polling
import Rtl812x.Kext.TxRing
import Rtl812x.Lib.Runs

/-!
# The transmit watchdog

While the link is up, `timerActionRTL8125` runs once in each timer interval.  Its `txHangCheck`
compares `txDescDoneCount`, which every retired descriptor raises, with the value `txDescDoneLast`
that the timer action before saved.  Where nothing was retired and descriptors are outstanding,
`deadlockWarn` goes up: at the fifth such tick in a row `txHangCheck` calls `txInterrupt` itself, at
the sixth it restarts the chip.

The timer action saves the counter at its very end, after the call at the fifth tick.  What that call
retires is therefore saved with it, and the sixth tick finds the counter unchanged.

* `WatchRun` — the driver between two operations, with a record of what was retired in each interval
  and of whether descriptors were outstanding at the tick that ends it;
* `txInterrupt_vtd`, `outputStart_vtd` — with AppleVTD the two functions are those of `Kext.Tx`;
* `Retires n s s'` — what a function adds to the counter: `txInterrupt` what it retires, `outputStart` 0;
* `WatchInv.step` — `deadlockWarn` counts quiet ticks, and before the sixth these were quiet indeed;
* `restart_only_stalled_iff` — **a restart has six intervals without a retired descriptor behind it,
  unless it follows a call at the fifth tick that retired some**;
* `rescued_run_restarts` — the call at the fifth tick retires a descriptor, and the sixth restarts.
-/

namespace Rtl812x.Kext.Watchdog

open TxRing Polling Runs

/-! ### The driver -/

section Driver

variable (cfg : TxConfig) (vtd : Bool)

/-- `txInterrupt`, when the close-pointer register reads `reg`. -/
def txInterrupt (reg : ℕ) (s : TxSide) : TxSide :=
  (TxRing.retireDesc vtd)^[numDone cfg reg s] (readClose cfg reg s)

/-- `outputStart`, with the packets waiting at the interface. -/
def outputStart (queue : List Offer) (s : TxSide) : TxSide :=
  if s.enabled && s.linkUp then
    txDoorbell cfg (queue.foldl
      (fun s o => if HasRoom s then TxRing.outputPacket cfg vtd o s else s) s)
  else s

/-- The transmit half of `clearRxTxRings`; the map is cleared with AppleVTD only. -/
def clearRxTxRings (s : TxSide) : TxSide :=
  if vtd then Kext.clearRxTxRings s
  else { Kext.clearRxTxRings s with
    txMem := s.txMem
    txNextMem2Use := s.txNextMem2Use
    txNextMem2Free := s.txNextMem2Free
    txNumFreeMem := s.txNumFreeMem }

/-- The transmit side, with what the watchdog keeps. -/
structure TxWatch where
  tx : TxSide
  txDescDoneLast : ℕ
  deadlockWarn : ℕ

/-- `rtl812xRestart`: the link is gone until the next link change, `clearRxTxRings` clears the
warnings with the rings, and `rtl812xEnable` configures the chip anew. -/
def rtl812xRestart (w : TxWatch) : TxWatch :=
  { w with
    tx := Kext.rtl812xHwConfig (clearRxTxRings vtd { w.tx with linkUp := false })
    deadlockWarn := 0 }

/-- The test at the head of `txHangCheck`. -/
def Quiet (w : TxWatch) : Prop :=
  w.tx.txDescDoneCount = w.txDescDoneLast ∧ w.tx.hw.txNumFreeDesc < kNumTxDesc

instance (w : TxWatch) : Decidable (Quiet w) := inferInstanceAs (Decidable (_ ∧ _))

/-- `txHangCheck`, when the close-pointer register reads `reg`: whether it restarts the chip, and
the state. -/
def txHangCheck (reg : ℕ) (w : TxWatch) : Bool × TxWatch :=
  if Quiet w then
    let w' := { w with deadlockWarn := w.deadlockWarn + 1 }
    if w'.deadlockWarn = kTxCheckTreshhold then
      (false, { w' with tx := txInterrupt cfg vtd reg w'.tx })
    else if kTxDeadlockTreshhold ≤ w'.deadlockWarn then (true, rtl812xRestart vtd w')
    else (false, w')
  else (false, { w with deadlockWarn := 0 })

/-- What `timerActionRTL8125` does first: nothing while the link is down. -/
def hangCheck (reg : ℕ) (w : TxWatch) : Bool × TxWatch :=
  if w.tx.linkUp then txHangCheck cfg vtd reg w else (false, w)

/-- `timerActionRTL8125`. -/
def timerAction (reg : ℕ) (w : TxWatch) : TxWatch :=
  let w' := (hangCheck cfg vtd reg w).2
  { w' with txDescDoneLast := w'.tx.txDescDoneCount }

/-! ### Runs with a record -/

/-- What happened in the interval that a tick ends: the descriptors retired, and whether some were
outstanding at the tick. -/
structure Interval where
  retired : ℕ
  outstanding : Bool
deriving DecidableEq, Repr

/-- The driver with a record that no function of it reads: the intervals so far, newest first, what
was retired since the last tick, and how much of that by the call of the last tick itself. -/
structure WatchRun where
  watch : TxWatch
  intervals : List Interval
  retired : ℕ
  rescued : ℕ

/-- From a link-up event on: no warnings, and a saved counter that is not ahead. -/
def WatchRun.start (tx : TxSide) (behind : ℕ) : WatchRun :=
  ⟨⟨tx, tx.txDescDoneCount - behind, 0⟩, [], 0, 0⟩

inductive WatchOp where
  /-- the interrupt handler or the poller calls `txInterrupt` -/
  | txInterrupt (reg : ℕ)
  | outputStart (queue : List Offer)
  /-- the timer fires; `reg` is what the register reads then -/
  | tick (reg : ℕ)

/-- The tick comes to the call of `txInterrupt`. -/
def Rescues (w : TxWatch) : Prop :=
  w.tx.linkUp = true ∧ Quiet w ∧ w.deadlockWarn + 1 = kTxCheckTreshhold

instance (w : TxWatch) : Decidable (Rescues w) := inferInstanceAs (Decidable (_ ∧ _))

def watchStep (s : WatchRun) : WatchOp → WatchRun
  | .txInterrupt reg =>
      { s with
        watch := { s.watch with tx := txInterrupt cfg vtd reg s.watch.tx }
        retired := s.retired + numDone cfg reg s.watch.tx }
  | .outputStart queue =>
      { s with watch := { s.watch with tx := outputStart cfg vtd queue s.watch.tx } }
  | .tick reg =>
      let rescued := if Rescues s.watch then numDone cfg reg s.watch.tx else 0
      { watch := timerAction cfg vtd reg s.watch
        intervals := ⟨s.retired, decide (s.watch.tx.hw.txNumFreeDesc < kNumTxDesc)⟩ :: s.intervals
        retired := rescued
        rescued := rescued }

/-- The tick calls `rtl812xRestart`. -/
def Restarts (s : WatchRun) : WatchOp → Prop
  | .tick reg => (hangCheck cfg vtd reg s.watch).1 = true
  | _ => False

/-- Nothing was retired in any of the last six intervals, and descriptors were outstanding at the end
of each. -/
def Stalled (intervals : List Interval) : Prop :=
  intervals.take kTxDeadlockTreshhold = List.replicate kTxDeadlockTreshhold ⟨0, true⟩

instance (s : WatchRun) : (op : WatchOp) → Decidable (Restarts cfg vtd s op)
  | .tick _ => inferInstanceAs (Decidable (_ = true))
  | .txInterrupt _ => inferInstanceAs (Decidable False)
  | .outputStart _ => inferInstanceAs (Decidable False)

instance (intervals : List Interval) : Decidable (Stalled intervals) :=
  inferInstanceAs (Decidable (_ = _))

/-- A restart finds a stalled transmitter. -/
def RestartsStalled (s : WatchRun) (op : WatchOp) : Prop :=
  Restarts cfg vtd s op → Stalled (watchStep cfg vtd s op).intervals

instance (s : WatchRun) (op : WatchOp) : Decidable (RestartsStalled cfg vtd s op) :=
  inferInstanceAs (Decidable (_ → _))

/-- The sixth tick of a row, after a call at the fifth that retired some. -/
def RescueForgotten (s : WatchRun) : WatchOp → Prop
  | .tick _ => s.watch.tx.linkUp = true ∧ Quiet s.watch ∧ s.watch.deadlockWarn = kTxCheckTreshhold ∧
      s.rescued ≠ 0
  | _ => False

end Driver

/-! ### The functions of the mapped path -/

/-- With AppleVTD `txInterrupt` is the function of `Kext.Tx`. -/
theorem txInterrupt_vtd (cfg : TxConfig) (reg : ℕ) (s : TxSide) :
    txInterrupt cfg true reg s = Kext.txInterrupt cfg reg s := by
  have hround : TxRing.retireDesc true = Kext.retireDesc := funext retireDesc_vtd
  rw [txInterrupt, hround]
  rfl

/-- So is `outputStart`. -/
theorem outputStart_vtd (cfg : TxConfig) (queue : List Offer) (s : TxSide) :
    outputStart cfg true queue s = Kext.outputStart cfg (queue.map Offer.toTxOffer) s := by
  rw [outputStart, Kext.outputStart, List.foldl_map]
  simp only [outputPacket_vtd]
  rfl

/-! ### What the functions do to the counter -/

variable {cfg : TxConfig} {vtd : Bool}

/-- On the way from `s` to `s'` the counter goes up by `n`, and the link stays as it is. -/
structure Retires (n : ℕ) (s s' : TxSide) : Prop where
  count : s'.txDescDoneCount = s.txDescDoneCount + n
  linkUp : s'.linkUp = s.linkUp

theorem Retires.trans {m n : ℕ} {s₁ s₂ s₃ : TxSide} (h : Retires m s₁ s₂) (h' : Retires n s₂ s₃) :
    Retires (m + n) s₁ s₃ := by
  refine ⟨?_, h'.linkUp.trans h.linkUp⟩
  rw [h'.count, h.count, Nat.add_assoc]

/-- A round of `txInterrupt` counts one descriptor. -/
theorem retires_retireDesc (s : TxSide) : Retires 1 s (TxRing.retireDesc vtd s) := by
  cases hmbuf : s.txMbuf s.hw.txDirtyDescIndex with
  | none =>
      simp only [TxRing.retireDesc, hmbuf]
      exact ⟨rfl, rfl⟩
  | some p =>
      simp only [TxRing.retireDesc, hmbuf]
      cases vtd <;> exact ⟨rfl, rfl⟩

theorem retires_retireDesc_iterate (n : ℕ) (s : TxSide) :
    Retires n s ((TxRing.retireDesc vtd)^[n] s) := by
  induction n with
  | zero => exact ⟨rfl, rfl⟩
  | succ n ih =>
      rw [Function.iterate_succ_apply']
      exact ih.trans (retires_retireDesc _)

/-- `txInterrupt` counts what it retires. -/
theorem retires_txInterrupt (reg : ℕ) (s : TxSide) :
    Retires (numDone cfg reg s) s (txInterrupt cfg vtd reg s) := by
  have hrounds : Retires (numDone cfg reg s) (readClose cfg reg s) (txInterrupt cfg vtd reg s) :=
    retires_retireDesc_iterate _ _
  exact ⟨hrounds.count, hrounds.linkUp⟩

theorem retires_txMapSlot (pkt n slot : ℕ) (r : TxMapResult) (s : TxSide) :
    Retires 0 s (txMapSlot pkt n slot r s).2 := by
  cases r with
  | segs iova =>
      simp only [txMapSlot]
      split <;> exact ⟨rfl, rfl⟩
  | _ => exact ⟨rfl, rfl⟩

theorem retires_segments (o : Offer) (s : TxSide) :
    Retires 0 s (segments cfg vtd o s).2 := by
  have hmem : Retires 0 s (takeMem cfg.pageSize (virtualSegments cfg.pageSize o.pkt.chain) s) :=
    ⟨rfl, rfl⟩
  cases vtd with
  | false => exact ⟨rfl, rfl⟩
  | true =>
      simp only [segments, if_true, txMapPacket]
      split
      · exact ⟨rfl, rfl⟩
      · split
        · split
          · exact hmem.trans (retires_txMapSlot _ _ _ _ _)
          · exact hmem.trans (retires_txMapSlot _ _ _ _ _)
        · exact ⟨rfl, rfl⟩

theorem retires_fillDescs (cmd opts2 : UInt32) (pkt : ℕ) (segs : List Segment) :
    ∀ (first : Bool) (index : ℕ) (s : TxSide),
      Retires 0 s (fillDescs cmd opts2 pkt first segs index s) := by
  induction segs with
  | nil => exact fun _ _ _ => ⟨rfl, rfl⟩
  | cons seg rest ih => exact fun _ _ _ => ⟨(ih _ _ _).count, (ih _ _ _).linkUp⟩

theorem retires_placePacket (cmd opts2 : UInt32) (pkt : ℕ) (segs : List Segment) (s : TxSide) :
    Retires 0 s (placePacket cmd opts2 pkt segs s) := by
  have hfilled := retires_fillDescs cmd opts2 pkt segs true s.hw.txNextDescIndex
    { s with hw := s.hw.place segs.length }
  exact ⟨hfilled.count, hfilled.linkUp⟩

theorem retires_outputPacket (o : Offer) (s : TxSide) :
    Retires 0 s (TxRing.outputPacket cfg vtd o s) := by
  have hmapped : Retires 0 s (segments cfg vtd o s).2 := retires_segments o s
  simp only [TxRing.outputPacket]
  split
  · exact ⟨rfl, rfl⟩
  · split
    · exact ⟨hmapped.count, hmapped.linkUp⟩
    · exact hmapped.trans (retires_placePacket _ _ _ _ _)

/-- `outputStart` retires nothing. -/
theorem retires_outputStart (queue : List Offer) (s : TxSide) :
    Retires 0 s (outputStart cfg vtd queue s) := by
  have hloop : ∀ s : TxSide, Retires 0 s
      (queue.foldl (fun s o => if HasRoom s then TxRing.outputPacket cfg vtd o s else s) s) := by
    induction queue with
    | nil => exact fun _ => ⟨rfl, rfl⟩
    | cons o queue ih =>
        intro s
        rw [List.foldl_cons]
        by_cases hroom : HasRoom s
        · rw [if_pos hroom]
          exact (retires_outputPacket o s).trans (ih _)
        · rw [if_neg hroom]
          exact ih s
  rw [outputStart]
  split
  · exact ⟨(hloop s).count, (hloop s).linkUp⟩
  · exact ⟨rfl, rfl⟩

/-! ### One tick -/

/-- A tick that finds the link down, a retired descriptor or an idle ring clears the warnings, where
there are any, and restarts nothing. -/
theorem hangCheck_calm (cfg : TxConfig) (vtd : Bool) {w : TxWatch} (reg : ℕ)
    (hcalm : ¬ (w.tx.linkUp = true ∧ Quiet w)) (hdown : w.tx.linkUp = false → w.deadlockWarn = 0) :
    hangCheck cfg vtd reg w = (false, { w with deadlockWarn := 0 }) := by
  by_cases hup : w.tx.linkUp = true
  · have hquiet : ¬ Quiet w := fun hq => hcalm ⟨hup, hq⟩
    rw [hangCheck, if_pos hup, txHangCheck, if_neg hquiet]
  · rw [hangCheck, if_neg hup, ← hdown (by simpa using hup)]

section Warning

variable (cfg : TxConfig) (vtd : Bool) {w : TxWatch} (reg : ℕ) (hup : w.tx.linkUp = true) (hquiet : Quiet w)
include hup hquiet

theorem hangCheck_warn (hw : w.deadlockWarn + 1 < kTxCheckTreshhold) :
    hangCheck cfg vtd reg w = (false, { w with deadlockWarn := w.deadlockWarn + 1 }) := by
  have hlast : ¬ kTxDeadlockTreshhold ≤ w.deadlockWarn + 1 := by
    have : kTxCheckTreshhold < kTxDeadlockTreshhold := by decide
    omega
  rw [hangCheck, if_pos hup, txHangCheck, if_pos hquiet]
  simp only [hw.ne, hlast, if_false]

theorem hangCheck_rescue (hw : w.deadlockWarn + 1 = kTxCheckTreshhold) :
    hangCheck cfg vtd reg w =
      (false, { w with tx := txInterrupt cfg vtd reg w.tx, deadlockWarn := kTxCheckTreshhold }) := by
  rw [hangCheck, if_pos hup, txHangCheck, if_pos hquiet]
  simp only [hw, if_true]

theorem hangCheck_restart (hw : w.deadlockWarn = kTxCheckTreshhold) :
    hangCheck cfg vtd reg w =
      (true, rtl812xRestart vtd { w with deadlockWarn := kTxDeadlockTreshhold }) := by
  have hnext : w.deadlockWarn + 1 = kTxDeadlockTreshhold := by rw [hw]; rfl
  have hpast : kTxDeadlockTreshhold ≠ kTxCheckTreshhold := by decide
  rw [hangCheck, if_pos hup, txHangCheck, if_pos hquiet]
  simp only [hnext, hpast, if_false, le_refl, if_true]

end Warning

/-! ### The invariant -/

/-- What the record says of the counters.  The warnings count intervals in which nothing was retired;
only the call that goes with the fifth warning is in no comparison. -/
structure WatchInv (s : WatchRun) : Prop where
  counted : s.watch.txDescDoneLast + s.retired ≤ s.watch.tx.txDescDoneCount + s.rescued
  rescued_le : s.rescued ≤ s.retired
  rescued_last : s.watch.deadlockWarn ≠ kTxCheckTreshhold → s.rescued = 0
  warn_le : s.watch.deadlockWarn ≤ kTxCheckTreshhold
  quiet : s.intervals.take s.watch.deadlockWarn = List.replicate s.watch.deadlockWarn ⟨0, true⟩
  down : s.watch.tx.linkUp = false → s.watch.deadlockWarn = 0

theorem WatchInv.start (tx : TxSide) (behind : ℕ) : WatchInv (WatchRun.start tx behind) where
  counted := Nat.sub_le tx.txDescDoneCount behind
  rescued_le := le_refl _
  rescued_last := fun _ => rfl
  warn_le := Nat.zero_le _
  quiet := rfl
  down := fun _ => rfl

/-- At a quiet tick, what was retired since the last one is what the last one retired itself. -/
theorem WatchInv.retired_eq {s : WatchRun} (h : WatchInv s) (hquiet : Quiet s.watch) :
    s.retired = s.rescued := by
  have hcounted := h.counted
  rw [hquiet.1] at hcounted
  have := h.rescued_le
  omega

/-- The newest interval joins a row of quiet ones. -/
theorem quiet_cons {n : ℕ} {intervals : List Interval}
    (h : intervals.take n = List.replicate n ⟨0, true⟩) (r : ℕ) :
    ((⟨r, true⟩ : Interval) :: intervals).take (n + 1) = List.replicate (n + 1) ⟨0, true⟩ ↔ r = 0 := by
  rw [List.take_succ_cons, List.replicate_succ, h]
  simp

/-- What the check leaves of the watchdog decides whether the tick keeps the invariant. -/
theorem WatchInv.of_check {s : WatchRun} {reg : ℕ} {restarts : Bool} {w : TxWatch}
    (hcheck : hangCheck cfg vtd reg s.watch = (restarts, w))
    (hrescue : Rescues s.watch → w.deadlockWarn = kTxCheckTreshhold)
    (hwarn : w.deadlockWarn ≤ kTxCheckTreshhold) (hdown : w.tx.linkUp = false → w.deadlockWarn = 0)
    (hrow : (watchStep cfg vtd s (.tick reg)).intervals.take w.deadlockWarn =
      List.replicate w.deadlockWarn ⟨0, true⟩) :
    WatchInv (watchStep cfg vtd s (.tick reg)) := by
  have hwatch : (watchStep cfg vtd s (.tick reg)).watch =
      { w with txDescDoneLast := w.tx.txDescDoneCount } := by
    simp only [watchStep, timerAction, hcheck]
  refine ⟨?_, le_refl _, ?_, ?_, ?_, ?_⟩
  · rw [hwatch]
    exact le_refl _
  · intro hne
    rw [hwatch] at hne
    exact if_neg fun hr => hne (hrescue hr)
  all_goals rw [hwatch]
  · exact hwarn
  · exact hrow
  · exact hdown

/-- A quiet tick before the sixth of a row: the interval it ends was quiet too. -/
theorem WatchInv.row {s : WatchRun} (h : WatchInv s) (reg : ℕ) (hquiet : Quiet s.watch)
    (hw : s.watch.deadlockWarn < kTxCheckTreshhold) :
    (watchStep cfg vtd s (.tick reg)).intervals.take (s.watch.deadlockWarn + 1) =
      List.replicate (s.watch.deadlockWarn + 1) ⟨0, true⟩ := by
  have hretired : s.retired = 0 := (h.retired_eq hquiet).trans (h.rescued_last hw.ne)
  have hout : decide (s.watch.tx.hw.txNumFreeDesc < kNumTxDesc) = true := decide_eq_true hquiet.2
  simp only [watchStep, hout]
  exact (quiet_cons h.quiet s.retired).mpr hretired

/-- **Every tick keeps the invariant.** -/
theorem WatchInv.tick {s : WatchRun} (h : WatchInv s) (reg : ℕ) :
    WatchInv (watchStep cfg vtd s (.tick reg)) := by
  by_cases hcalm : s.watch.tx.linkUp = true ∧ Quiet s.watch
  · obtain ⟨hup, hquiet⟩ := hcalm
    rcases lt_trichotomy (s.watch.deadlockWarn + 1) kTxCheckTreshhold with hlt | heq | hgt
    · -- a warning
      refine .of_check (hangCheck_warn cfg vtd reg hup hquiet hlt) ?_ hlt.le ?_ ?_
      · exact fun hr => absurd hr.2.2 hlt.ne
      · exact fun hdown => absurd (hup.symm.trans hdown) Bool.noConfusion
      · exact h.row reg hquiet (by omega)
    · -- the fifth warning, with the call of `txInterrupt`
      refine .of_check (hangCheck_rescue cfg vtd reg hup hquiet heq) (fun _ => rfl) le_rfl ?_ ?_
      · intro hdown
        rw [(retires_txInterrupt reg s.watch.tx).linkUp, hup] at hdown
        exact Bool.noConfusion hdown
      · rw [← heq]
        exact h.row reg hquiet (by omega)
    · -- a restart
      have hlast : s.watch.deadlockWarn = kTxCheckTreshhold := le_antisymm h.warn_le (by omega)
      refine .of_check (hangCheck_restart cfg vtd reg hup hquiet hlast) ?_ (Nat.zero_le _)
        (fun _ => rfl) rfl
      exact fun hr => absurd hr.2.2 hgt.ne'
  · refine .of_check (hangCheck_calm cfg vtd reg hcalm h.down) ?_ (Nat.zero_le _) (fun _ => rfl) rfl
    exact fun hr => absurd ⟨hr.1, hr.2.1⟩ hcalm

/-- **Every operation keeps the invariant.** -/
theorem WatchInv.step {s : WatchRun} (h : WatchInv s) (op : WatchOp) :
    WatchInv (watchStep cfg vtd s op) := by
  cases op with
  | tick reg => exact h.tick reg
  | txInterrupt reg =>
      refine ⟨?_, ?_, h.rescued_last, h.warn_le, h.quiet, ?_⟩
      · have hcounted := h.counted
        simp only [watchStep, (retires_txInterrupt reg s.watch.tx).count]
        omega
      · exact h.rescued_le.trans (Nat.le_add_right _ _)
      · simp only [watchStep, (retires_txInterrupt reg s.watch.tx).linkUp]
        exact h.down
  | outputStart queue =>
      refine ⟨?_, h.rescued_le, h.rescued_last, h.warn_le, h.quiet, ?_⟩
      · simp only [watchStep, (retires_outputStart queue s.watch.tx).count]
        exact h.counted
      · simp only [watchStep, (retires_outputStart queue s.watch.tx).linkUp]
        exact h.down

/-! ### Restarts -/

/-- A tick restarts the chip when it is the sixth quiet one of a row. -/
theorem WatchInv.restarts_iff {s : WatchRun} (h : WatchInv s) (reg : ℕ) :
    Restarts cfg vtd s (.tick reg) ↔
      s.watch.tx.linkUp = true ∧ Quiet s.watch ∧ s.watch.deadlockWarn = kTxCheckTreshhold := by
  constructor
  · intro hrestarts
    by_cases hcalm : s.watch.tx.linkUp = true ∧ Quiet s.watch
    · obtain ⟨hup, hquiet⟩ := hcalm
      refine ⟨hup, hquiet, ?_⟩
      rcases lt_trichotomy (s.watch.deadlockWarn + 1) kTxCheckTreshhold with hlt | heq | hgt
      · rw [Restarts, hangCheck_warn cfg vtd reg hup hquiet hlt] at hrestarts
        exact Bool.noConfusion hrestarts
      · rw [Restarts, hangCheck_rescue cfg vtd reg hup hquiet heq] at hrestarts
        exact Bool.noConfusion hrestarts
      · exact le_antisymm h.warn_le (by omega)
    · rw [Restarts, hangCheck_calm cfg vtd reg hcalm h.down] at hrestarts
      exact Bool.noConfusion hrestarts
  · rintro ⟨hup, hquiet, hlast⟩
    rw [Restarts, hangCheck_restart cfg vtd reg hup hquiet hlast]

/-- One operation: a restart finds a stalled transmitter unless a call at the fifth tick was
forgotten. -/
theorem WatchInv.restartsStalled_iff {s : WatchRun} (h : WatchInv s) (op : WatchOp) :
    RestartsStalled cfg vtd s op ↔ ¬ RescueForgotten s op := by
  cases op with
  | txInterrupt reg => exact iff_of_true (fun hr => hr.elim) id
  | outputStart queue => exact iff_of_true (fun hr => hr.elim) id
  | tick reg =>
      rw [RestartsStalled, h.restarts_iff reg]
      by_cases hsixth : s.watch.tx.linkUp = true ∧ Quiet s.watch ∧ s.watch.deadlockWarn = kTxCheckTreshhold
      · obtain ⟨hup, hquiet, hlast⟩ := hsixth
        have hout : decide (s.watch.tx.hw.txNumFreeDesc < kNumTxDesc) = true := decide_eq_true hquiet.2
        -- five quiet intervals are on record; the sixth holds what the call retired
        have hrow : Stalled (watchStep cfg vtd s (.tick reg)).intervals ↔ s.rescued = 0 := by
          have hfive := h.quiet
          rw [hlast] at hfive
          rw [← h.retired_eq hquiet]
          simp only [watchStep, hout]
          exact quiet_cons hfive s.retired
        simp only [RescueForgotten, hup, hquiet, hlast, true_and, forall_const, ne_eq, not_not]
        exact hrow
      · exact iff_of_true (fun hr => absurd hr hsixth)
          fun hr => hsixth ⟨hr.1, hr.2.1, hr.2.2.1⟩

/-- **A restart has six intervals behind it in which nothing was retired and at whose ends
descriptors were outstanding**, in the runs in which no sixth tick of a row follows a call at the
fifth that retired some, and in no others. -/
theorem restart_only_stalled_iff (cfg : TxConfig) (vtd : Bool) (tx : TxSide) (behind : ℕ)
    (ops : List WatchOp) :
    Along (watchStep cfg vtd) (RestartsStalled cfg vtd) (WatchRun.start tx behind) ops ↔
      Along (watchStep cfg vtd) (fun s op => ¬ RescueForgotten s op) (WatchRun.start tx behind) ops :=
  along_congr (fun _ op hs => hs.restartsStalled_iff op) (fun _ op hs _ => hs.step op)
    (WatchInv.start tx behind)

/-- A packet of 60 bytes, in one segment. -/
def oneSegment : Offer :=
  ⟨⟨⟨7, [(0x4000, 60)], 60, false, false, false, 0, 0, false, false, false, false, false, none⟩,
    .initFails, fun _ => ⟨0, 0⟩⟩, [⟨0x10000, 60⟩]⟩

/-- Two packets go out and four ticks find nothing; the chip has closed the first by the fifth, whose
call retires it, and is at work on the second at the sixth. -/
def rescuedRun : List WatchOp :=
  [.outputStart [oneSegment, oneSegment], .tick 0, .tick 0, .tick 0, .tick 0, .tick 1, .tick 1]

/-- A chip of the first generation. -/
def firstChip : TxConfig := ⟨.m2, 4096, 1500⟩

/-- **The sixth tick restarts the chip although the call at the fifth retired a descriptor.** -/
theorem rescued_run_restarts :
    ¬ Along (watchStep firstChip false) (RestartsStalled firstChip false)
      (WatchRun.start (Kext.setLinkUp TxSide.init) 0) rescuedRun := by
  decide +kernel

end Rtl812x.Kext.Watchdog
