import Rtl812x.Kext.LinkReport
import Rtl812x.Kext.PollMask
import Rtl812x.Kext.Watchdog

/-!
# The life of the interface

The stack enables and disables the interface, selects media and sets the packet size; the chip raises
interrupts, the timer fires, and the output and poll threads call in.  Each of these functions keeps part of
the state: the flags, the PCI device, the interrupt source, the timer, the output thread, the chip's engines,
the interrupt mask, the rings, and what the stack has been told of the link.  Each call is one step here; how
the threads interleave is the matter of `Kext.Polling` and `Kext.PollMask`.

`disable` clears `__LINK_UP` with the other flags before it calls `rtl812xDisable`, whose last statement
reports the link as down only if it finds the flag set.  So the report of a disabled interface stays what it
was.

* `Iface`, `step` — the state and its functions;
* `Down` — what every function that takes the link down leaves; `Works` — what the others do not change;
  `Off` — what `disable` leaves;
* `Consistent` — **the invariant**; `Consistent.step` — **every function keeps it**;
* `interface_consistent` — **it holds in every run**;
* `disable_keeps_report` — **a link that was up at a disable stays reported as active** until the next
  enable, medium selection or change of the packet size.
-/

namespace Rtl812x.Kext.Lifecycle

open Runs TxRing Watchdog LinkMedium PollMask

/-! ### The state -/

structure Iface where
  cfg : TxConfig
  /-- the transmit side with `__ENABLED` and `__LINK_UP`, and what the watchdog keeps -/
  watch : TxWatch
  pollMode : Bool
  intrMask : UInt32
  /-- what was last written to IMR0 -/
  imr : UInt32
  /-- `CmdTxEnb` and `CmdRxEnb` stand in ChipCmd -/
  engine : Bool
  /-- the PCI device is open -/
  pciOpen : Bool
  /-- the interrupt source is enabled -/
  interrupts : Bool
  /-- the timer is set -/
  timer : Bool
  /-- the output thread of the interface runs -/
  output : Bool
  /-- the active link that `setLinkStatus` was last told of, if it was -/
  report : Option Report

namespace Iface

def enabled (s : Iface) : Bool := s.watch.tx.enabled
def linkUp (s : Iface) : Bool := s.watch.tx.linkUp

/-- Change the flags of the transmit side. -/
def setFlags (enabled linkUp : Bool) (s : Iface) : Iface :=
  { s with watch := { s.watch with tx := { s.watch.tx with enabled := enabled, linkUp := linkUp } } }

end Iface

/-! ### Functions -/

section Functions

variable (vtd : Bool)

/-- `rtl8125_nic_reset`: the engines stop. -/
def nicReset (s : Iface) : Iface := { s with engine := false }

/-- `rtl8125_hw_reset`, which also masks all interrupts. -/
def hwReset (s : Iface) : Iface := nicReset { s with imr := 0 }

/-- `clearRxTxRings`, with the warnings it clears. -/
def clearRxTxRings (s : Iface) : Iface :=
  { s with watch := { s.watch with tx := Watchdog.clearRxTxRings vtd s.watch.tx, deadlockWarn := 0 } }

/-- `rtl812xHwConfig`. -/
def rtl812xHwConfig (s : Iface) : Iface :=
  { nicReset s with watch := { s.watch with tx := Kext.rtl812xHwConfig s.watch.tx }, imr := s.intrMask }

/-- `rtl812xEnable`. -/
def rtl812xEnable (s : Iface) : Iface :=
  rtl812xHwConfig (hwReset { s with report := none, intrMask := intrMaskRxTx, pollMode := false })

/-- `rtl812xDisable`: the link is reported as down if the flag is still set. -/
def rtl812xDisable (s : Iface) : Iface :=
  let s := clearRxTxRings vtd (hwReset s)
  if s.linkUp then { s.setFlags s.enabled false with report := none } else s

/-- `rtl812xRestart`. -/
def rtl812xRestart (s : Iface) : Iface :=
  rtl812xEnable (clearRxTxRings vtd
    (nicReset { s.setFlags s.enabled false with output := false, report := none }))

/-- `setLinkDown`. -/
def setLinkDown (s : Iface) : Iface :=
  let s := { s.setFlags s.enabled false with output := false, pollMode := false, report := none }
  { clearRxTxRings vtd (hwReset s) with intrMask := intrMaskRxTx, imr := intrMaskRxTx }

/-- `setLinkUp`. -/
def setLinkUp (rep : Report) (s : Iface) : Iface :=
  { s.setFlags s.enabled true with engine := true, report := some rep, output := true }

/-- What the registers read when the link status is checked. -/
structure Reading where
  link : LinkReading
  eee : EeeRegs

/-- `rtl812xCheckLinkStatus`. -/
def rtl812xCheckLinkStatus (r : Reading) (s : Iface) : Iface :=
  if r.link.up then
    { setLinkUp (linkUpReport s.cfg.mcfg r.link r.eee) (rtl812xHwConfig s) with timer := true }
  else clearRxTxRings vtd (setLinkDown vtd { hwReset s with timer := false })

/-- `txInterrupt`, when the close-pointer register reads `reg`. -/
def txInterrupt (reg : ℕ) (s : Iface) : Iface :=
  { s with watch := { s.watch with tx := Watchdog.txInterrupt s.cfg vtd reg s.watch.tx } }

/-- The handler's part outside polling mode. -/
def handleRings (status : UInt32) (reg : ℕ) (s : Iface) : Iface :=
  let s := if status &&& (txOK ||| rxOK ||| pcsTimeout) ≠ 0 then txInterrupt vtd reg s else s
  if status &&& (txOK ||| rxOK) ≠ 0 then { s with intrMask := intrMaskTimer }
  else if status &&& pcsTimeout ≠ 0 then { s with intrMask := intrMaskRxTx }
  else s

/-- The handler's part for a link change. -/
def handleLink (status : UInt32) (r : Reading) (s : Iface) : Iface :=
  if status &&& linkChg ≠ 0 then { rtl812xCheckLinkStatus vtd r s with intrMask := intrMaskRxTx } else s

/-- `interruptOccurred` and `interruptOccurredVTD`. -/
def interruptOccurred (status : UInt32) (reg : ℕ) (r : Reading) (s : Iface) : Iface :=
  if status = 0xFFFFFFFF ∨ status = 0 then { s with imr := s.intrMask }
  else
    let s := { s with imr := 0 }
    let s := if s.pollMode then s else handleRings vtd status reg s
    let s := handleLink vtd status r s
    { s with imr := s.intrMask }

/-- `txHangCheck`: whether it restarts the chip, and the state. -/
def txHangCheck (reg : ℕ) (s : Iface) : Bool × Iface :=
  let h := Watchdog.txHangCheck s.cfg vtd reg s.watch
  (h.1, if h.1 then { rtl812xRestart vtd s with watch := h.2 } else { s with watch := h.2 })

/-- `timerActionRTL8125`: the timer is set again while the link is up and the chip is not restarted. -/
def timerAction (reg : ℕ) (s : Iface) : Iface :=
  let s := { s with timer := false }
  let s := if s.linkUp then
      let h := txHangCheck vtd reg s
      if h.1 then h.2 else { h.2 with timer := true }
    else s
  { s with watch := { s.watch with txDescDoneLast := s.watch.tx.txDescDoneCount } }

/-- `selectMedium`, for a medium that is there. -/
def selectMedium (s : Iface) : Iface := setLinkDown vtd s

def kMaxPacketSize : ℕ := 9000 + 14 + 4 + 4

/-- `setMaxPacketSize`. -/
def setMaxPacketSize (maxSize : ℕ) (s : Iface) : Iface :=
  if maxSize ≤ kMaxPacketSize then
    rtl812xRestart vtd { setLinkDown vtd { s with cfg := { s.cfg with mtu := WrapCounter.sub32 maxSize 18 } } with
      timer := false }
  else s

/-- The counters that `enable` and `disable` clear. -/
def clearCounts (s : Iface) : Iface :=
  { s with watch := { s.watch with tx := { s.watch.tx with txDescDoneCount := 0 }, txDescDoneLast := 0 } }

/-- `enable`; some medium is always selected. -/
def enable (s : Iface) : Iface :=
  if s.enabled then s
  else if s.pciOpen then s
  else
    let s := rtl812xEnable (selectMedium vtd { s with pciOpen := true })
    let s := clearCounts { s with interrupts := true }
    { s.setFlags true s.linkUp with watch.deadlockWarn := 0, pollMode := false }

/-- `disable`; no poll is under way. -/
def disable (s : Iface) : Iface :=
  if s.enabled then
    let s := { s.setFlags false false with output := false, pollMode := false, timer := false }
    let s := { clearCounts s with interrupts := false }
    { clearRxTxRings vtd (rtl812xDisable vtd s) with pciOpen := false }
  else s

/-- `setInputPacketPollingEnable`. -/
def setInputPacketPollingEnable (on : Bool) (s : Iface) : Iface :=
  if s.enabled then { s with pollMode := on, intrMask := pollingMask on, imr := pollingMask on } else s

/-- `pollInputPackets`, on the transmit side. -/
def pollInputPackets (reg : ℕ) (s : Iface) : Iface := if s.pollMode then txInterrupt vtd reg s else s

/-- `outputStart`. -/
def outputStart (queue : List Offer) (s : Iface) : Iface :=
  { s with watch := { s.watch with tx := Watchdog.outputStart s.cfg vtd queue s.watch.tx } }

/-- What can happen to an interface. -/
inductive Op where
  | enable
  | disable
  /-- `systemWillShutdown`, for a power-off or a restart -/
  | shutdown
  | selectMedium
  | setMaxPacketSize (maxSize : ℕ)
  | interrupt (status : UInt32) (reg : ℕ) (r : Reading)
  | tick (reg : ℕ)
  | output (queue : List Offer)
  | setPolling (on : Bool)
  | poll (reg : ℕ)

/-- An interrupt is taken while its source is enabled, a tick comes while the timer is set, and packets are
taken while the output thread runs. -/
def step (s : Iface) : Op → Iface
  | .enable => enable vtd s
  | .disable => disable vtd s
  | .shutdown => disable vtd s
  | .selectMedium => selectMedium vtd s
  | .setMaxPacketSize maxSize => setMaxPacketSize vtd maxSize s
  | .interrupt status reg r => if s.interrupts then interruptOccurred vtd status reg r s else s
  | .tick reg => if s.timer then timerAction vtd reg s else s
  | .output queue => if s.output then outputStart vtd queue s else s
  | .setPolling on => setInputPacketPollingEnable on s
  | .poll reg => pollInputPackets vtd reg s

/-- After a successful `start`. -/
def started (cfg : TxConfig) : Iface where
  cfg := cfg
  watch := ⟨{ TxSide.init with enabled := false }, 0, 0⟩
  pollMode := false
  intrMask := intrMaskRxTx
  imr := 0
  engine := false
  pciOpen := false
  interrupts := false
  timer := false
  output := false
  report := none

end Functions

/-! ### What the ring functions leave alone -/

section Rings

variable {cfg : TxConfig} {vtd : Bool}

/-- The flags are the same. -/
structure SameFlags (s s' : TxSide) : Prop where
  enabled : s'.enabled = s.enabled
  linkUp : s'.linkUp = s.linkUp

theorem SameFlags.trans {s₁ s₂ s₃ : TxSide} (h : SameFlags s₁ s₂) (h' : SameFlags s₂ s₃) : SameFlags s₁ s₃ :=
  ⟨h'.enabled.trans h.enabled, h'.linkUp.trans h.linkUp⟩

theorem sameFlags_clearRxTxRings (s : TxSide) : SameFlags s (Watchdog.clearRxTxRings vtd s) := by
  cases vtd <;> exact ⟨rfl, rfl⟩

theorem sameFlags_retireDesc (s : TxSide) : SameFlags s (TxRing.retireDesc vtd s) := by
  cases hmbuf : s.txMbuf s.hw.txDirtyDescIndex with
  | none =>
      simp only [TxRing.retireDesc, hmbuf]
      exact ⟨rfl, rfl⟩
  | some p =>
      simp only [TxRing.retireDesc, hmbuf]
      cases vtd <;> exact ⟨rfl, rfl⟩

theorem sameFlags_txInterrupt (reg : ℕ) (s : TxSide) : SameFlags s (Watchdog.txInterrupt cfg vtd reg s) := by
  have hrounds : ∀ n (s : TxSide), SameFlags s ((TxRing.retireDesc vtd)^[n] s) := by
    intro n
    induction n with
    | zero => exact fun s => ⟨rfl, rfl⟩
    | succ n ih => exact fun s => (sameFlags_retireDesc s).trans (ih _)
  have hread : SameFlags s (readClose cfg reg s) := ⟨rfl, rfl⟩
  exact hread.trans (hrounds _ _)

theorem sameFlags_segments (o : Offer) (s : TxSide) : SameFlags s (segments cfg vtd o s).2 := by
  have hslot : ∀ (n slot : ℕ) (s : TxSide), SameFlags s (txMapSlot o.pkt.id n slot o.result s).2 := by
    intro n slot s
    cases o.result with
    | segs iova =>
        simp only [txMapSlot]
        split <;> exact ⟨rfl, rfl⟩
    | _ => exact ⟨rfl, rfl⟩
  have hmem : SameFlags s (takeMem cfg.pageSize (virtualSegments cfg.pageSize o.pkt.chain) s) := ⟨rfl, rfl⟩
  cases vtd with
  | false => exact ⟨rfl, rfl⟩
  | true =>
      simp only [segments, if_true, txMapPacket]
      repeat' split
      · exact ⟨rfl, rfl⟩
      · exact hmem.trans (hslot _ _ _)
      · exact hmem.trans (hslot _ _ _)
      · exact ⟨rfl, rfl⟩

theorem sameFlags_outputPacket (o : Offer) (s : TxSide) : SameFlags s (TxRing.outputPacket cfg vtd o s) := by
  have hfill : ∀ (cmd opts2 : UInt32) (pkt : ℕ) (segs : List Segment) (first : Bool) (index : ℕ) (s : TxSide),
      SameFlags s (fillDescs cmd opts2 pkt first segs index s) := by
    intro cmd opts2 pkt segs
    induction segs with
    | nil => exact fun _ _ _ => ⟨rfl, rfl⟩
    | cons seg rest ih => exact fun _ _ _ => ⟨(ih _ _ _).enabled, (ih _ _ _).linkUp⟩
  have hmapped : SameFlags s (segments cfg vtd o s).2 := sameFlags_segments o s
  simp only [TxRing.outputPacket]
  repeat' split
  · exact ⟨rfl, rfl⟩
  · exact ⟨hmapped.enabled, hmapped.linkUp⟩
  · have hplaced := hfill (offloadWords cfg.mtu o.pkt).1 ((offloadWords cfg.mtu o.pkt).2 ||| vlanWord o.pkt.vlanTag)
      o.pkt.id (segments cfg vtd o s).1 true (segments cfg vtd o s).2.hw.txNextDescIndex
      { (segments cfg vtd o s).2 with hw := (segments cfg vtd o s).2.hw.place (segments cfg vtd o s).1.length }
    exact ⟨hplaced.enabled.trans hmapped.enabled, hplaced.linkUp.trans hmapped.linkUp⟩

theorem sameFlags_outputStart (queue : List Offer) (s : TxSide) :
    SameFlags s (Watchdog.outputStart cfg vtd queue s) := by
  have hloop : ∀ s : TxSide, SameFlags s
      (queue.foldl (fun s o => if HasRoom s then TxRing.outputPacket cfg vtd o s else s) s) := by
    induction queue with
    | nil => exact fun _ => ⟨rfl, rfl⟩
    | cons o queue ih =>
        intro s
        rw [List.foldl_cons]
        split
        · exact (sameFlags_outputPacket o s).trans (ih _)
        · exact ih s
  rw [Watchdog.outputStart]
  split
  · exact ⟨(hloop s).enabled, (hloop s).linkUp⟩
  · exact ⟨rfl, rfl⟩

/-- No slot of the ring holds a packet. -/
def Empty (s : TxSide) : Prop := ∀ i < kNumTxDesc, s.txMbuf i = none

theorem empty_clearRxTxRings (s : TxSide) : Empty (Watchdog.clearRxTxRings vtd s) := by
  intro i hi
  cases vtd <;> exact if_pos hi

theorem Empty.retireDesc {s : TxSide} (h : Empty s) : Empty (TxRing.retireDesc vtd s) := by
  intro i hi
  cases hmbuf : s.txMbuf s.hw.txDirtyDescIndex with
  | none =>
      simp only [TxRing.retireDesc, hmbuf]
      exact h i hi
  | some p =>
      have hother : Function.update s.txMbuf s.hw.txDirtyDescIndex none i = none := by
        rw [Function.update_apply]
        split
        · rfl
        · exact h i hi
      simp only [TxRing.retireDesc, hmbuf]
      cases vtd <;> exact hother

theorem Empty.txInterrupt {s : TxSide} (h : Empty s) (reg : ℕ) : Empty (Watchdog.txInterrupt cfg vtd reg s) := by
  have hrounds : ∀ n (s : TxSide), Empty s → Empty ((TxRing.retireDesc vtd)^[n] s) := by
    intro n
    induction n with
    | zero => exact fun s hs => hs
    | succ n ih => exact fun s hs => ih _ hs.retireDesc
  exact hrounds _ (readClose cfg reg s) h

/-- A hang check that does not restart the chip keeps the flags. -/
theorem sameFlags_txHangCheck {reg : ℕ} {w : TxWatch} (h : (Watchdog.txHangCheck cfg vtd reg w).1 = false) :
    SameFlags w.tx (Watchdog.txHangCheck cfg vtd reg w).2.tx := by
  revert h
  simp only [Watchdog.txHangCheck]
  repeat' split
  · exact fun _ => sameFlags_txInterrupt reg w.tx
  · exact fun h => absurd h.symm Bool.false_ne_true
  · exact fun _ => ⟨rfl, rfl⟩
  · exact fun _ => ⟨rfl, rfl⟩

/-- One that does takes the link down and clears the ring. -/
theorem txHangCheck_restarts {reg : ℕ} {w : TxWatch} (h : (Watchdog.txHangCheck cfg vtd reg w).1 = true) :
    (Watchdog.txHangCheck cfg vtd reg w).2.tx.enabled = w.tx.enabled ∧
      (Watchdog.txHangCheck cfg vtd reg w).2.tx.linkUp = false ∧
      Empty (Watchdog.txHangCheck cfg vtd reg w).2.tx := by
  have hcleared : SameFlags { w.tx with linkUp := false } (Watchdog.clearRxTxRings vtd { w.tx with linkUp := false }) :=
    sameFlags_clearRxTxRings _
  revert h
  simp only [Watchdog.txHangCheck]
  repeat' split
  · exact fun h => absurd h Bool.false_ne_true
  · exact fun _ => ⟨hcleared.enabled, hcleared.linkUp, empty_clearRxTxRings _⟩
  · exact fun h => absurd h Bool.false_ne_true
  · exact fun h => absurd h Bool.false_ne_true

end Rings

/-! ### The invariant -/

/-- The masks the driver uses. -/
def IsMask (mask : UInt32) : Prop := mask = intrMaskRxTx ∨ mask = intrMaskTimer ∨ mask = intrMaskPoll

/-- How the parts of the state go together. -/
structure Sound (s : Iface) : Prop where
  pciOpen : s.pciOpen = s.enabled
  interrupts : s.interrupts = s.enabled
  /-- the output thread runs exactly while the link is up -/
  output : s.output = s.linkUp
  /-- so do the engines of the chip -/
  engine : s.engine = s.linkUp
  enabled : s.linkUp = true → s.enabled = true
  /-- the watchdog watches every link -/
  timer : s.linkUp = true → s.timer = true
  /-- without a link no packet waits in the ring -/
  empty : s.linkUp = false → Empty s.watch.tx
  /-- the stack of an enabled interface knows of a link exactly while there is one -/
  report : s.enabled = true → s.report.isSome = s.linkUp
  mask : IsMask s.intrMask
  /-- a disabled interface is left alone -/
  quiet : s.enabled = false → s.pollMode = false ∧ s.timer = false

/-- An enabled interface hears of what its mask says, and of link changes whatever the mask. -/
structure Consistent (s : Iface) : Prop extends Sound s where
  imr : s.enabled = true → s.imr = s.intrMask

/-- On the way from `s` to `s'` the link goes down: nothing of it is left, and the stack knows. -/
structure Down (s s' : Iface) : Prop where
  enabled : s'.enabled = s.enabled
  pciOpen : s'.pciOpen = s.pciOpen
  interrupts : s'.interrupts = s.interrupts
  timer : s'.timer = true → s.timer = true
  linkUp : s'.linkUp = false
  output : s'.output = false
  engine : s'.engine = false
  empty : Empty s'.watch.tx
  report : s'.report = none
  pollMode : s'.pollMode = false
  intrMask : s'.intrMask = intrMaskRxTx
  imr : s'.imr = intrMaskRxTx

theorem Sound.down {s s' : Iface} (h : Sound s) (hd : Down s s') : Consistent s' where
  pciOpen := by rw [hd.pciOpen, hd.enabled, h.pciOpen]
  interrupts := by rw [hd.interrupts, hd.enabled, h.interrupts]
  output := by rw [hd.output, hd.linkUp]
  engine := by rw [hd.engine, hd.linkUp]
  enabled hup := absurd (hd.linkUp.symm.trans hup) Bool.false_ne_true
  timer hup := absurd (hd.linkUp.symm.trans hup) Bool.false_ne_true
  empty _ := hd.empty
  report _ := by rw [hd.report, hd.linkUp]; rfl
  mask := .inl hd.intrMask
  quiet hoff := by
    refine ⟨hd.pollMode, eq_false_of_ne_true fun ht => ?_⟩
    exact Bool.false_ne_true ((h.quiet (hd.enabled ▸ hoff)).2.symm.trans (hd.timer ht))
  imr _ := by rw [hd.imr, hd.intrMask]

theorem Down.trans {s t u : Iface} (h : Down s t) (h' : Down t u) : Down s u :=
  { h' with
    enabled := h'.enabled.trans h.enabled
    pciOpen := h'.pciOpen.trans h.pciOpen
    interrupts := h'.interrupts.trans h.interrupts
    timer := fun ht => h.timer (h'.timer ht) }

/-! ### Functions that take the link down -/

section Steps

variable {vtd : Bool}

theorem down_setLinkDown (s : Iface) : Down s (setLinkDown vtd s) := by
  have hcleared : SameFlags { s.watch.tx with linkUp := false }
      (Watchdog.clearRxTxRings vtd { s.watch.tx with linkUp := false }) := sameFlags_clearRxTxRings _
  exact ⟨hcleared.enabled, rfl, rfl, id, hcleared.linkUp, rfl, rfl, empty_clearRxTxRings _, rfl, rfl, rfl, rfl⟩

theorem down_rtl812xRestart (s : Iface) : Down s (rtl812xRestart vtd s) := by
  have hcleared : SameFlags { s.watch.tx with linkUp := false }
      (Watchdog.clearRxTxRings vtd { s.watch.tx with linkUp := false }) := sameFlags_clearRxTxRings _
  exact ⟨hcleared.enabled, rfl, rfl, id, hcleared.linkUp, rfl, rfl, empty_clearRxTxRings _, rfl, rfl, rfl, rfl⟩

/-- The link-down branch of `rtl812xCheckLinkStatus`. -/
theorem down_rtl812xCheckLinkStatus {r : Reading} (hr : r.link.up = false) (s : Iface) :
    Down s (rtl812xCheckLinkStatus vtd r s) := by
  have hdown : Down { hwReset s with timer := false } (setLinkDown vtd { hwReset s with timer := false }) :=
    down_setLinkDown _
  have hcleared : SameFlags (setLinkDown vtd { hwReset s with timer := false }).watch.tx
      (rtl812xCheckLinkStatus vtd r s).watch.tx := by
    rw [rtl812xCheckLinkStatus, if_neg (by rw [hr]; exact Bool.false_ne_true)]
    exact sameFlags_clearRxTxRings _
  rw [rtl812xCheckLinkStatus, if_neg (by rw [hr]; exact Bool.false_ne_true)] at hcleared ⊢
  exact ⟨hcleared.enabled.trans hdown.enabled, rfl, rfl, fun ht => absurd ht Bool.false_ne_true,
    hcleared.linkUp.trans hdown.linkUp, rfl, rfl, empty_clearRxTxRings _, rfl, rfl, rfl, rfl⟩

/-! ### The other functions -/

/-- On the way from `s` to `s'` only the rings and the mask change. -/
structure Works (s s' : Iface) : Prop where
  flags : SameFlags s.watch.tx s'.watch.tx
  empty : s.linkUp = false → Empty s.watch.tx → Empty s'.watch.tx
  mask : IsMask s.intrMask → IsMask s'.intrMask
  pollMode : s'.pollMode = s.pollMode
  engine : s'.engine = s.engine
  pciOpen : s'.pciOpen = s.pciOpen
  interrupts : s'.interrupts = s.interrupts
  timer : s'.timer = s.timer
  output : s'.output = s.output
  report : s'.report = s.report

theorem Sound.works {s s' : Iface} (h : Sound s) (hw : Works s s') : Sound s' := by
  have henabled : s'.enabled = s.enabled := hw.flags.enabled
  have hlinkUp : s'.linkUp = s.linkUp := hw.flags.linkUp
  constructor
  case pciOpen => rw [hw.pciOpen, henabled, h.pciOpen]
  case interrupts => rw [hw.interrupts, henabled, h.interrupts]
  case output => rw [hw.output, hlinkUp, h.output]
  case engine => rw [hw.engine, hlinkUp, h.engine]
  case enabled => rw [henabled, hlinkUp]; exact h.enabled
  case timer => rw [hw.timer, hlinkUp]; exact h.timer
  case empty => rw [hlinkUp]; exact fun hdown => hw.empty hdown (h.empty hdown)
  case report => rw [henabled, hw.report, hlinkUp]; exact h.report
  case mask => exact hw.mask h.mask
  case quiet => rw [henabled, hw.pollMode, hw.timer]; exact h.quiet

theorem works_refl (s : Iface) : Works s s :=
  ⟨⟨rfl, rfl⟩, fun _ => id, id, rfl, rfl, rfl, rfl, rfl, rfl, rfl⟩

theorem works_txInterrupt (reg : ℕ) (s : Iface) : Works s (txInterrupt vtd reg s) :=
  ⟨sameFlags_txInterrupt reg _, fun _ h => h.txInterrupt reg, id, rfl, rfl, rfl, rfl, rfl, rfl, rfl⟩

/-- Packets are put on the ring of a link that is up only. -/
theorem works_outputStart (queue : List Offer) (s : Iface) : Works s (outputStart vtd queue s) := by
  refine ⟨sameFlags_outputStart queue _, fun hdown h => ?_, id, rfl, rfl, rfl, rfl, rfl, rfl, rfl⟩
  have hflags : ¬ (s.watch.tx.enabled && s.watch.tx.linkUp) = true := by
    intro hboth
    exact Bool.false_ne_true (hdown.symm.trans (Bool.and_eq_true_iff.mp hboth).2)
  rw [outputStart, Watchdog.outputStart, if_neg hflags]
  exact h

theorem works_handleRings (status : UInt32) (reg : ℕ) (s : Iface) : Works s (handleRings vtd status reg s) := by
  have hrings : Works s (if status &&& (txOK ||| rxOK ||| pcsTimeout) ≠ 0 then txInterrupt vtd reg s else s) := by
    split
    · exact works_txInterrupt reg s
    · exact works_refl s
  simp only [handleRings]
  split
  · exact { hrings with mask := fun _ => .inr (.inl rfl) }
  · split
    · exact { hrings with mask := fun _ => .inl rfl }
    · exact hrings

/-- A link change on an enabled interface. -/
theorem Sound.rtl812xCheckLinkStatus {s : Iface} (h : Sound s) (henabled : s.enabled = true) (r : Reading) :
    Sound (rtl812xCheckLinkStatus vtd r s) := by
  cases hr : r.link.up with
  | false => exact (h.down (down_rtl812xCheckLinkStatus hr s)).toSound
  | true =>
      rw [Lifecycle.rtl812xCheckLinkStatus, if_pos hr]
      exact ⟨h.pciOpen, h.interrupts, rfl, rfl, fun _ => henabled, fun _ => rfl,
        fun hdown => absurd hdown.symm Bool.false_ne_true, fun _ => rfl, h.mask,
        fun hoff => absurd (hoff.symm.trans henabled) Bool.false_ne_true⟩

theorem Sound.handleLink {s : Iface} (h : Sound s) (henabled : s.enabled = true) (status : UInt32) (r : Reading) :
    Sound (handleLink vtd status r s) := by
  rw [Lifecycle.handleLink]
  split
  · exact { h.rtl812xCheckLinkStatus henabled r with mask := .inl rfl }
  · exact h

theorem Sound.interruptOccurred {s : Iface} (h : Sound s) (henabled : s.enabled = true) (status : UInt32)
    (reg : ℕ) (r : Reading) : Consistent (interruptOccurred vtd status reg r s) := by
  have hmasked : Sound { s with imr := 0 } := { h with }
  have hrings : Works { s with imr := 0 }
      (if s.pollMode then { s with imr := 0 } else handleRings vtd status reg { s with imr := 0 }) := by
    split
    · exact works_refl _
    · exact works_handleRings status reg _
  rw [Lifecycle.interruptOccurred]
  split
  · exact { h with imr := fun _ => rfl }
  · exact { (hmasked.works hrings).handleLink (hrings.flags.enabled.trans henabled) status r with
      imr := fun _ => rfl }

theorem Consistent.works {s s' : Iface} (h : Consistent s) (hw : Works s s') (himr : s'.imr = s.imr)
    (hmask : s'.intrMask = s.intrMask) : Consistent s' := by
  refine ⟨h.toSound.works hw, fun henabled => ?_⟩
  rw [himr, hmask]
  exact h.imr (hw.flags.enabled.symm.trans henabled)

/-- A hang check that finds the link up, with the timer set again unless it restarts the chip. -/
theorem Consistent.hangCheck {s : Iface} (h : Consistent s) (hup : s.linkUp = true) (reg : ℕ) :
    let t : Iface := { s with timer := false }
    Consistent (if (txHangCheck vtd reg t).1 then (txHangCheck vtd reg t).2
      else { (txHangCheck vtd reg t).2 with timer := true }) := by
  intro t
  cases hcheck : (Watchdog.txHangCheck s.cfg vtd reg s.watch).1 with
  | true =>
      obtain ⟨henabled, hlinkUp, hempty⟩ := txHangCheck_restarts hcheck
      have hdown : Down s { rtl812xRestart vtd t with watch := (Watchdog.txHangCheck s.cfg vtd reg s.watch).2 } :=
        ⟨henabled, rfl, rfl, fun ht => absurd ht Bool.false_ne_true, hlinkUp, rfl, rfl, hempty, rfl, rfl, rfl, rfl⟩
      rw [if_pos (show (Lifecycle.txHangCheck vtd reg t).1 = true from hcheck), Lifecycle.txHangCheck, if_pos hcheck]
      exact h.toSound.down hdown
  | false =>
      have hnot : ¬ (Watchdog.txHangCheck s.cfg vtd reg s.watch).1 = true := by
        rw [hcheck]
        exact Bool.false_ne_true
      rw [if_neg (show ¬ (Lifecycle.txHangCheck vtd reg t).1 = true from hnot), Lifecycle.txHangCheck, if_neg hnot]
      refine h.works ⟨sameFlags_txHangCheck hcheck, fun hdown => ?_, id, rfl, rfl, rfl, rfl, ?_, rfl, rfl⟩ rfl rfl
      · exact absurd (hdown.symm.trans hup) Bool.false_ne_true
      · exact (h.timer hup).symm

theorem Consistent.timerAction {s : Iface} (h : Consistent s) (reg : ℕ) : Consistent (timerAction vtd reg s) := by
  have hsaved : ∀ {t : Iface}, Consistent t →
      Consistent { t with watch := { t.watch with txDescDoneLast := t.watch.tx.txDescDoneCount } } :=
    fun ht => { ht with }
  refine hsaved ?_
  split
  case isTrue hup => exact h.hangCheck hup reg
  case isFalse hdown =>
    exact { h with
      timer := fun hup => absurd hup hdown
      quiet := fun hoff => ⟨(h.quiet hoff).1, rfl⟩ }

/-- What `disable` leaves of an enabled interface. -/
structure Off (s s' : Iface) : Prop where
  enabled : s'.enabled = false
  linkUp : s'.linkUp = false
  pciOpen : s'.pciOpen = false
  interrupts : s'.interrupts = false
  timer : s'.timer = false
  output : s'.output = false
  engine : s'.engine = false
  pollMode : s'.pollMode = false
  empty : Empty s'.watch.tx
  intrMask : s'.intrMask = s.intrMask
  /-- what the stack was told of the link -/
  report : s'.report = s.report

theorem Sound.off {s s' : Iface} (h : Sound s) (ho : Off s s') : Consistent s' where
  pciOpen := ho.pciOpen.trans ho.enabled.symm
  interrupts := ho.interrupts.trans ho.enabled.symm
  output := ho.output.trans ho.linkUp.symm
  engine := ho.engine.trans ho.linkUp.symm
  enabled hup := absurd (ho.linkUp.symm.trans hup) Bool.false_ne_true
  timer hup := absurd (ho.linkUp.symm.trans hup) Bool.false_ne_true
  empty _ := ho.empty
  report hon := absurd (ho.enabled.symm.trans hon) Bool.false_ne_true
  mask := by rw [ho.intrMask]; exact h.mask
  quiet _ := ⟨ho.pollMode, ho.timer⟩
  imr hon := absurd (ho.enabled.symm.trans hon) Bool.false_ne_true

/-- `rtl812xDisable` finds the link flag cleared and reports nothing. -/
theorem off_disable {s : Iface} (henabled : s.enabled = true) : Off s (disable vtd s) := by
  let t : TxSide := { s.watch.tx with enabled := false, linkUp := false, txDescDoneCount := 0 }
  have hcleared : SameFlags t (Watchdog.clearRxTxRings vtd t) := sameFlags_clearRxTxRings _
  have hagain : SameFlags t (Watchdog.clearRxTxRings vtd (Watchdog.clearRxTxRings vtd t)) :=
    hcleared.trans (sameFlags_clearRxTxRings _)
  have hdown : ¬ (Watchdog.clearRxTxRings vtd t).linkUp = true := by
    rw [hcleared.linkUp]
    exact Bool.false_ne_true
  rw [disable, if_pos henabled]
  simp only [rtl812xDisable]
  rw [if_neg (by exact hdown)]
  exact ⟨hagain.enabled, hagain.linkUp, rfl, rfl, rfl, rfl, rfl, rfl, empty_clearRxTxRings _, rfl, rfl⟩

theorem Consistent.disable {s : Iface} (h : Consistent s) : Consistent (disable vtd s) := by
  cases henabled : s.enabled with
  | true => exact h.toSound.off (off_disable henabled)
  | false =>
      rw [Lifecycle.disable, if_neg (by rw [henabled]; exact Bool.false_ne_true)]
      exact h

theorem Consistent.enable {s : Iface} (h : Consistent s) : Consistent (enable vtd s) := by
  rw [Lifecycle.enable]
  split
  · exact h
  · split
    · exact h
    · have hdown : Down { s with pciOpen := true } (setLinkDown vtd { s with pciOpen := true }) := down_setLinkDown _
      exact ⟨⟨rfl, rfl, hdown.linkUp.symm, hdown.linkUp.symm, fun _ => rfl,
        fun hup => absurd (hdown.linkUp.symm.trans hup) Bool.false_ne_true, fun _ => hdown.empty,
        fun _ => hdown.linkUp.symm, .inl rfl, fun hoff => absurd hoff.symm Bool.false_ne_true⟩, fun _ => rfl⟩

/-- The first statements of `setMaxPacketSize`. -/
theorem down_setLinkDown_sized (cfg : TxConfig) (s : Iface) :
    Down s { setLinkDown vtd { s with cfg := cfg } with timer := false } := by
  have hsized : Down { s with cfg := cfg } (setLinkDown vtd { s with cfg := cfg }) := down_setLinkDown _
  exact { hsized with timer := fun ht => absurd ht Bool.false_ne_true }

theorem down_setMaxPacketSize {maxSize : ℕ} (hsize : maxSize ≤ kMaxPacketSize) (s : Iface) :
    Down s (setMaxPacketSize vtd maxSize s) := by
  rw [setMaxPacketSize, if_pos hsize]
  exact (down_setLinkDown_sized _ s).trans (down_rtl812xRestart _)

theorem Consistent.setPolling {s : Iface} (h : Consistent s) (on : Bool) :
    Consistent (setInputPacketPollingEnable on s) := by
  rw [setInputPacketPollingEnable]
  split
  case isTrue henabled =>
    have hmask : IsMask (pollingMask on) := by
      cases on with
      | true => exact .inr (.inr rfl)
      | false => exact .inl rfl
    exact { h with
      mask := hmask
      quiet := fun hoff => absurd (hoff.symm.trans henabled) Bool.false_ne_true
      imr := fun _ => rfl }
  case isFalse => exact h

/-- **Every function keeps the invariant.** -/
theorem Consistent.step {s : Iface} (h : Consistent s) (op : Op) : Consistent (step vtd s op) := by
  cases op with
  | enable => exact h.enable
  | disable => exact h.disable
  | shutdown => exact h.disable
  | selectMedium => exact h.toSound.down (down_setLinkDown s)
  | setMaxPacketSize maxSize =>
      by_cases hsize : maxSize ≤ kMaxPacketSize
      · exact h.toSound.down (down_setMaxPacketSize hsize s)
      · rw [Lifecycle.step, setMaxPacketSize, if_neg hsize]
        exact h
  | interrupt status reg r =>
      rw [Lifecycle.step]
      split
      case isTrue hintr => exact h.toSound.interruptOccurred (h.interrupts.symm.trans hintr) status reg r
      case isFalse => exact h
  | tick reg =>
      rw [Lifecycle.step]
      split
      · exact h.timerAction reg
      · exact h
  | output queue =>
      rw [Lifecycle.step]
      split
      · exact h.works (works_outputStart queue s) rfl rfl
      · exact h
  | setPolling on => exact h.setPolling on
  | poll reg =>
      rw [Lifecycle.step, pollInputPackets]
      split
      · exact h.works (works_txInterrupt reg s) rfl rfl
      · exact h

theorem consistent_started (cfg : TxConfig) : Consistent (started cfg) :=
  ⟨⟨rfl, rfl, rfl, rfl, fun hup => hup, fun hup => hup, fun _ _ _ => rfl,
    fun hon => absurd hon Bool.false_ne_true, .inl rfl, fun _ => ⟨rfl, rfl⟩⟩,
    fun hon => absurd hon Bool.false_ne_true⟩

/-! ### Whole runs -/

theorem consistent_exec (cfg : TxConfig) (ops : List Op) :
    Consistent (exec (Lifecycle.step vtd) (started cfg) ops) := by
  have hstep : ∀ s op, Consistent s → Consistent (Lifecycle.step vtd s op) := fun _ op h => h.step op
  exact invariant_exec hstep (consistent_started cfg)

theorem IsMask.linkChg {mask : UInt32} (h : IsMask mask) : mask &&& linkChg ≠ 0 := by
  rcases h with rfl | rfl | rfl <;> decide

/-- **The life of the interface**: whatever the stack, the chip and the timer do, the parts of the state go
together after every call, and an enabled interface hears of link changes. -/
theorem interface_consistent (vtd : Bool) (cfg : TxConfig) (ops : List Op) :
    let s := exec (Lifecycle.step vtd) (started cfg) ops
    Consistent s ∧ (s.enabled = true → s.imr &&& linkChg ≠ 0) := by
  intro s
  have hs : Consistent s := consistent_exec cfg ops
  refine ⟨hs, fun henabled => ?_⟩
  rw [hs.imr henabled]
  exact hs.mask.linkChg

/-- What the stack may do to a disabled interface without the link being reported anew. -/
def Op.Silent : Op → Prop
  | .enable => False
  | .selectMedium => False
  | .setMaxPacketSize maxSize => kMaxPacketSize < maxSize
  | _ => True

/-- On a disabled interface nothing else does anything. -/
theorem Off.step_eq {s s' : Iface} (h : Off s s') {op : Op} (hop : op.Silent) : Lifecycle.step vtd s' op = s' := by
  have hnot : ¬ s'.enabled = true := by
    rw [h.enabled]
    exact Bool.false_ne_true
  cases op with
  | enable => exact hop.elim
  | selectMedium => exact hop.elim
  | disable => exact if_neg hnot
  | shutdown => exact if_neg hnot
  | setMaxPacketSize maxSize => exact if_neg (Nat.not_le.mpr hop)
  | interrupt status reg r => exact if_neg (by rw [h.interrupts]; exact Bool.false_ne_true)
  | tick reg => exact if_neg (by rw [h.timer]; exact Bool.false_ne_true)
  | output queue => exact if_neg (by rw [h.output]; exact Bool.false_ne_true)
  | setPolling on => exact if_neg hnot
  | poll reg => exact if_neg (by rw [h.pollMode]; exact Bool.false_ne_true)

theorem Off.exec_eq {s s' : Iface} (h : Off s s') {ops : List Op} (hops : ∀ op ∈ ops, op.Silent) :
    exec (Lifecycle.step vtd) s' ops = s' := by
  induction ops with
  | nil => rfl
  | cons op ops ih =>
      rw [exec, h.step_eq (hops op List.mem_cons_self)]
      exact ih fun op' hop' => hops op' (List.mem_cons_of_mem op hop')

/-- **A link that is up when the interface is disabled stays reported**: it is gone, but the stack is told so
only when the interface is enabled again, a medium is selected or the packet size is changed. -/
theorem disable_keeps_report (vtd : Bool) (cfg : TxConfig) (ops : List Op) {after : List Op} (hafter : ∀ op ∈ after, op.Silent)
    (hup : (exec (Lifecycle.step vtd) (started cfg) ops).linkUp = true) :
    let s := exec (Lifecycle.step vtd) (started cfg) ops
    let s' := exec (Lifecycle.step vtd) (Lifecycle.step vtd s .disable) after
    s'.enabled = false ∧ s'.linkUp = false ∧ s'.engine = false ∧ s'.report = s.report ∧ s.report.isSome = true := by
  intro s s'
  have hs : Consistent s := consistent_exec cfg ops
  have hoff : Off s (Lifecycle.step vtd s .disable) := off_disable (hs.enabled hup)
  have hsame : s' = Lifecycle.step vtd s .disable := hoff.exec_eq hafter
  rw [hsame]
  exact ⟨hoff.enabled, hoff.linkUp, hoff.engine, hoff.report, (hs.report (hs.enabled hup)).trans hup⟩

end Steps

/-- The interface is enabled, and a gigabit link comes up. -/
def gigabitRun : List Op := [.enable, .interrupt linkChg 0 ⟨⟨0x13, 0, ⟨0, 0, 0⟩⟩, ⟨0, 0, 0, 0⟩⟩]

/-- Such a link, at a disable and after a shutdown. -/
theorem disable_keeps_report_gigabit :
    let s := exec (step true) (started firstChip) gigabitRun
    let s' := exec (step true) (step true s .disable) [.shutdown, .tick 0]
    s.linkUp = true ∧ s'.linkUp = false ∧ s'.report = s.report ∧ s'.report = some ⟨.m1000FD, 1000000000⟩ := by
  intro s s'
  have hup : (exec (step true) (started firstChip) gigabitRun).linkUp = true := by decide
  have hreport : (exec (step true) (started firstChip) gigabitRun).report = some ⟨.m1000FD, 1000000000⟩ := by
    decide
  have hsilent : ∀ op ∈ [Op.shutdown, .tick 0], op.Silent :=
    List.forall_mem_cons.mpr ⟨trivial, List.forall_mem_cons.mpr ⟨trivial, List.forall_mem_nil _⟩⟩
  obtain ⟨-, hdown, -, hsame, -⟩ := disable_keeps_report true firstChip gigabitRun hsilent hup
  exact ⟨hup, hdown, hsame, hsame.trans hreport⟩

end Rtl812x.Kext.Lifecycle
