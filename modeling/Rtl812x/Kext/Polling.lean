import Rtl812x.Hw.Regs
import Rtl812x.Lib.TryLock

/-!
# Polling and the work loop

Two threads of the kext handle the rings.  The **work loop** runs the interrupt handler, the
watchdog timer, link changes and the calls that enable and disable the interface; the **poll
thread** runs `pollInputPackets` and `setInputPacketPollingEnable`.  The bit `__POLLING` of
`stateFlags` is the lock: `interruptOccurred` and `pollInputPackets` take it by `test_and_set_bit`
and give it back by `clear_bit`.

The functions are programs of atomic statements (`TryLock.Prog`), with the rest of the caller as
their continuation `k`.  `__POLLING` is the lock bit, the other flags and the counters the watchdog
looks at are the shared state, and the ring operations are the operations that take time.  What a
call reads of the chip comes with the call; the output thread only shows in `txNumFreeDesc`.

* `ringOps_exclusive` — **two ring operations are never in progress at once** in a run in which the
  work loop goes without the lock into a ring operation only while `__POLLING` is clear, and so on
  (`TryLock.Respects`);
* `watchdog_meets_poll` — the watchdog calls `txInterrupt` in the middle of a poll.
-/

namespace Rtl812x.Kext.Polling

open TryLock Runs

inductive RingOp where
  | rxInterrupt | rxInterruptVTD | txInterrupt | clearRxTxRings
deriving DecidableEq, Repr

inductive KextThread where
  | workLoop | poll
deriving DecidableEq, Repr

/-- `stateFlags` without `__POLLING`, and what the watchdog looks at. -/
structure Shared where
  enabled : Bool
  linkUp : Bool
  pollMode : Bool
  deadlockWarn : ℕ
  txDescDoneCount : ℕ
  txDescDoneLast : ℕ
  txNumFreeDesc : ℤ
deriving DecidableEq, Repr

abbrev KextProg := Prog Shared RingOp

def kTxDeadlockTreshhold : ℕ := 6
def kTxCheckTreshhold : ℕ := kTxDeadlockTreshhold - 1

/-! ### The ring operations -/

def rxInterrupt (useAppleVTD : Bool) (k : KextProg) : KextProg :=
  .op (if useAppleVTD then .rxInterruptVTD else .rxInterrupt) id k

/-- `txInterrupt`, which finds `numDone` descriptors closed. -/
def txInterrupt (numDone : ℕ) (k : KextProg) : KextProg :=
  .op .txInterrupt (fun s => { s with
    txDescDoneCount := s.txDescDoneCount + numDone
    txNumFreeDesc := s.txNumFreeDesc + numDone }) k

def clearRxTxRings (k : KextProg) : KextProg :=
  .op .clearRxTxRings (fun s => { s with txNumFreeDesc := kNumTxDesc, deadlockWarn := 0 }) k

/-! ### Link changes and restarts -/

def rtl812xHwConfig (k : KextProg) : KextProg :=
  .act (fun s => { s with txNumFreeDesc := kNumTxDesc }) k

def setLinkDown (k : KextProg) : KextProg :=
  .act (fun s => { s with deadlockWarn := 0 })
    (.act (fun s => { s with linkUp := false, pollMode := false }) (clearRxTxRings k))

def setLinkUp (k : KextProg) : KextProg := .act (fun s => { s with linkUp := true }) k

def rtl812xCheckLinkStatus (status : UInt32) (k : KextProg) : KextProg :=
  if phyLinkUp status then rtl812xHwConfig (setLinkUp k) else setLinkDown (clearRxTxRings k)

def rtl812xEnable (k : KextProg) : KextProg :=
  .act (fun s => { s with pollMode := false }) (rtl812xHwConfig k)

def rtl812xDisable (k : KextProg) : KextProg :=
  clearRxTxRings (.act (fun s => { s with linkUp := false }) k)

def rtl812xRestart (k : KextProg) : KextProg :=
  .act (fun s => { s with linkUp := false }) (clearRxTxRings (rtl812xEnable k))

/-! ### The work loop -/

/-- `interruptOccurred` and `interruptOccurredVTD`, which differ in the receive handler they call:
`status` is read from ISR0, `phy` from PHYstatus. -/
def interruptOccurred (useAppleVTD : Bool) (status : UInt32) (numDone : ℕ) (phy : UInt32) : KextProg :=
  if status = 0xffffffff ∨ status = 0 then .ret
  else
    let link := if status &&& linkChg ≠ 0 then rtl812xCheckLinkStatus phy .ret else .ret
    let tx := if status &&& (txOK ||| rxOK ||| pcsTimeout) ≠ 0 then txInterrupt numDone (.unlock link)
      else .unlock link
    let rx := if status &&& (rxOK ||| rxDescUnavail) ≠ 0 then rxInterrupt useAppleVTD tx else tx
    .test (fun _ s => s.pollMode) link (.tryLock link rx)

/-- `txHangCheck`; it has no lock of its own. -/
def txHangCheck (numDone : ℕ) (k : KextProg) : KextProg :=
  .test (fun _ s => s.txDescDoneCount == s.txDescDoneLast && decide (s.txNumFreeDesc < kNumTxDesc))
    (.act (fun s => { s with deadlockWarn := s.deadlockWarn + 1 })
      (.test (fun _ s => s.deadlockWarn == kTxCheckTreshhold) (txInterrupt numDone k)
        (.test (fun _ s => decide (kTxDeadlockTreshhold ≤ s.deadlockWarn)) (rtl812xRestart k) k)))
    (.act (fun s => { s with deadlockWarn := 0 }) k)

def timerActionRTL8125 (numDone : ℕ) : KextProg :=
  let done := .act (fun s => { s with txDescDoneLast := s.txDescDoneCount }) .ret
  .test (fun _ s => s.linkUp) (txHangCheck numDone done) done

def selectMedium (k : KextProg) : KextProg := setLinkDown k

def setMaxPacketSize (k : KextProg) : KextProg := setLinkDown (rtl812xRestart k)

/-- `enable`, when the PCI device can be opened. -/
def enable : KextProg :=
  .test (fun _ s => s.enabled) .ret
    (selectMedium (rtl812xEnable
      (.act (fun s => { s with txDescDoneCount := 0, txDescDoneLast := 0, deadlockWarn := 0 })
        (.act (fun s => { s with enabled := true })
          (.act (fun s => { s with pollMode := false }) .ret)))))

/-- The wait of `disable`: it looks at `__POLLING` so many times and then goes on. -/
def waitPolling : ℕ → KextProg → KextProg
  | 0, k => k
  | n + 1, k => .test (fun polling _ => polling) (waitPolling n k) k

def disable : KextProg :=
  .test (fun _ s => s.enabled)
    (waitPolling 11
      (.force (fun s => { s with enabled := false, linkUp := false, pollMode := false })
        (.act (fun s => { s with txDescDoneCount := 0, txDescDoneLast := 0 })
          (rtl812xDisable (clearRxTxRings .ret)))))
    .ret

/-! ### The poll thread -/

def setInputPacketPollingEnable (on : Bool) : KextProg :=
  .test (fun _ s => s.enabled) (.act (fun s => { s with pollMode := on }) .ret) .ret

def pollInputPackets (useAppleVTD : Bool) (numDone : ℕ) : KextProg :=
  .test (fun _ s => s.pollMode)
    (.tryLock .ret (rxInterrupt useAppleVTD (txInterrupt numDone (.unlock .ret)))) .ret

/-! ### The discipline of the programs -/

section Discipline

variable {k : KextProg} {held : Bool}

/-- Outside the lock or in it, the work loop may clear the rings. -/
theorem clearRxTxRings_keeps (hk : k.Keeps true held) : (clearRxTxRings k).Keeps true held :=
  ⟨Or.inl rfl, hk⟩

theorem setLinkDown_keeps (hk : k.Keeps true held) : (setLinkDown k).Keeps true held :=
  clearRxTxRings_keeps hk

theorem rtl812xRestart_keeps (hk : k.Keeps true held) : (rtl812xRestart k).Keeps true held :=
  clearRxTxRings_keeps hk

theorem rtl812xCheckLinkStatus_keeps (status : UInt32) (hk : k.Keeps true held) :
    (rtl812xCheckLinkStatus status k).Keeps true held := by
  rw [rtl812xCheckLinkStatus]
  split
  · exact hk
  · exact setLinkDown_keeps (clearRxTxRings_keeps hk)

/-- **The interrupt handler** releases what it has taken before it looks at the link. -/
theorem interruptOccurred_keeps (useAppleVTD : Bool) (status : UInt32) (numDone : ℕ) (phy : UInt32) :
    (interruptOccurred useAppleVTD status numDone phy).Keeps true false := by
  rw [interruptOccurred]
  split
  · rfl
  · have hlink : (if status &&& linkChg ≠ 0 then rtl812xCheckLinkStatus phy .ret
        else .ret : KextProg).Keeps true false := by
      split
      · exact rtl812xCheckLinkStatus_keeps phy rfl
      · rfl
    refine ⟨hlink, rfl, hlink, ?_⟩
    split <;> split
    · exact ⟨Or.inr rfl, Or.inr rfl, rfl, hlink⟩
    · exact ⟨Or.inr rfl, rfl, hlink⟩
    · exact ⟨Or.inr rfl, rfl, hlink⟩
    · exact ⟨rfl, hlink⟩

theorem txHangCheck_keeps (numDone : ℕ) (hk : k.Keeps true held) :
    (txHangCheck numDone k).Keeps true held :=
  ⟨⟨⟨Or.inl rfl, hk⟩, rtl812xRestart_keeps hk, hk⟩, hk⟩

theorem timerActionRTL8125_keeps (numDone : ℕ) : (timerActionRTL8125 numDone).Keeps true false :=
  ⟨txHangCheck_keeps numDone rfl, rfl⟩

theorem enable_keeps : enable.Keeps true false :=
  ⟨rfl, setLinkDown_keeps rfl⟩

theorem waitPolling_keeps (n : ℕ) (hk : k.Keeps true held) : (waitPolling n k).Keeps true held := by
  induction n with
  | zero => exact hk
  | succ n ih => exact ⟨ih, hk⟩

theorem disable_keeps : disable.Keeps true false :=
  ⟨waitPolling_keeps 11 ⟨rfl, rfl, clearRxTxRings_keeps (clearRxTxRings_keeps rfl)⟩, rfl⟩

theorem setMaxPacketSize_keeps (hk : k.Keeps true held) : (setMaxPacketSize k).Keeps true held :=
  setLinkDown_keeps (rtl812xRestart_keeps hk)

/-- The poll thread handles the rings with the lock only. -/
theorem pollInputPackets_keeps (useAppleVTD : Bool) (numDone : ℕ) :
    (pollInputPackets useAppleVTD numDone).Keeps false false :=
  ⟨⟨rfl, rfl, Or.inr rfl, Or.inr rfl, rfl, rfl⟩, rfl⟩

theorem setInputPacketPollingEnable_keeps (on : Bool) :
    (setInputPacketPollingEnable on).Keeps false false :=
  ⟨rfl, rfl⟩

end Discipline

/-! ### Runs -/

/-- A statement of one of the threads, a call that finds its thread idle, or the output thread
placing descriptors. -/
inductive KextOp where
  | run (t : KextThread)
  | interruptOccurred (status : UInt32) (numDone : ℕ) (phy : UInt32)
  | timerActionRTL8125 (numDone : ℕ)
  | enable
  | disable
  | selectMedium
  | setMaxPacketSize
  | pollInputPackets (numDone : ℕ)
  | setInputPacketPollingEnable (on : Bool)
  | outputStart (n : ℕ)

def KextOp.move (useAppleVTD : Bool) : KextOp → Move Shared RingOp KextThread
  | .run t => .run t
  | .interruptOccurred status numDone phy =>
      .call .workLoop (Polling.interruptOccurred useAppleVTD status numDone phy)
  | .timerActionRTL8125 numDone => .call .workLoop (Polling.timerActionRTL8125 numDone)
  | .enable => .call .workLoop Polling.enable
  | .disable => .call .workLoop Polling.disable
  | .selectMedium => .call .workLoop (Polling.selectMedium .ret)
  | .setMaxPacketSize => .call .workLoop (Polling.setMaxPacketSize .ret)
  | .pollInputPackets numDone => .call .poll (Polling.pollInputPackets useAppleVTD numDone)
  | .setInputPacketPollingEnable on => .call .poll (Polling.setInputPacketPollingEnable on)
  | .outputStart n => .env fun s =>
      if s.enabled && s.linkUp then { s with txNumFreeDesc := s.txNumFreeDesc - n } else s

abbrev KextSys := Sys Shared RingOp KextThread

def kextStep (useAppleVTD : Bool) (s : KextSys) (op : KextOp) : KextSys := s.step (op.move useAppleVTD)

/-- After `start`: nothing enabled, both threads idle. -/
def KextSys.init : KextSys := ⟨false, ⟨false, false, false, 0, 0, 0, kNumTxDesc⟩, fun _ => .idle⟩

/-- The step respects `__POLLING`: the work loop begins a ring operation without it, and clears it
in `disable`, only while it is clear, and no thread takes it during such an operation. -/
def PollingRespected (useAppleVTD : Bool) (s : KextSys) (op : KextOp) : Prop :=
  Respects .workLoop s (op.move useAppleVTD)

instance (useAppleVTD : Bool) (s : KextSys) (op : KextOp) :
    Decidable (PollingRespected useAppleVTD s op) :=
  inferInstanceAs (Decidable (Respects _ _ _))

/-- Every call is of a program that keeps the discipline. -/
theorem move_disciplined (useAppleVTD : Bool) (op : KextOp) :
    Disciplined KextThread.workLoop (op.move useAppleVTD) := by
  cases op with
  | run t => trivial
  | interruptOccurred status numDone phy => exact interruptOccurred_keeps _ _ _ _
  | timerActionRTL8125 numDone => exact timerActionRTL8125_keeps _
  | enable => exact enable_keeps
  | disable => exact disable_keeps
  | selectMedium => exact setLinkDown_keeps rfl
  | setMaxPacketSize => exact setMaxPacketSize_keeps rfl
  | pollInputPackets numDone => exact pollInputPackets_keeps _ _
  | setInputPacketPollingEnable on => exact setInputPacketPollingEnable_keeps _
  | outputStart n => trivial

/-- Ring operations are in progress on both threads. -/
def BothInRings (s : KextSys) : Prop :=
  (s.thread .workLoop).doing.isSome = true ∧ (s.thread .poll).doing.isSome = true

instance (s : KextSys) : Decidable (BothInRings s) := inferInstanceAs (Decidable (_ ∧ _))

/-- **Ring operations exclude each other** in every run that respects `__POLLING`. -/
theorem ringOps_exclusive (useAppleVTD : Bool) (ops : List KextOp)
    (hrun : Along (kextStep useAppleVTD) (PollingRespected useAppleVTD) KextSys.init ops) :
    ¬ BothInRings (exec (kextStep useAppleVTD) KextSys.init ops) := by
  have hinv : Inv KextThread.workLoop (exec (kextStep useAppleVTD) KextSys.init ops) :=
    invariant_along (fun _ op hi hok => hi.step (move_disciplined useAppleVTD op) hok)
      (Inv.idle _ _ _) hrun
  rintro ⟨hwork, hpoll⟩
  cases hinv.exclusive hwork hpoll

/-- The interface comes up and the first packet goes out, then polling is switched on. -/
def startPolling : List KextOp :=
  KextOp.enable :: List.replicate 10 (KextOp.run .workLoop) ++
  KextOp.interruptOccurred linkChg 0 phyLinkStatus :: List.replicate 8 (KextOp.run .workLoop) ++
  KextOp.outputStart 1 ::
  KextOp.setInputPacketPollingEnable true :: List.replicate 2 (KextOp.run .poll)

/-- A poll in `rxInterruptVTD` when an interrupt comes. -/
def interruptedPoll : List KextOp :=
  startPolling ++ KextOp.pollInputPackets 1 :: List.replicate 3 (KextOp.run .poll) ++
    KextOp.interruptOccurred rxOK 0 0 :: List.replicate 2 (KextOp.run .workLoop)

/-- The interrupt handler stays away from the rings. -/
theorem ringOps_exclusive_poll_interrupted :
    ((exec (kextStep true) KextSys.init interruptedPoll).thread .poll).doing = some .rxInterruptVTD ∧
    ¬ BothInRings (exec (kextStep true) KextSys.init interruptedPoll) :=
  ⟨by decide +kernel, ringOps_exclusive true _ (by decide +kernel)⟩

/-- The watchdog finds no progress for the fifth time while a poll is in `rxInterruptVTD`. -/
theorem watchdog_meets_poll :
    BothInRings (exec (kextStep true) KextSys.init (startPolling ++
      (List.replicate 4 (.timerActionRTL8125 0 :: List.replicate 6 (.run .workLoop))).flatten ++
      .pollInputPackets 0 :: List.replicate 3 (.run .poll) ++
      .timerActionRTL8125 0 :: List.replicate 5 (.run .workLoop))) := by
  decide +kernel

end Rtl812x.Kext.Polling
