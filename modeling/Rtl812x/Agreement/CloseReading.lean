import Rtl812x.Dext.TxAccounting
import Rtl812x.Kext.TxInStep

/-!
# What a close-pointer reading can do to the transmit ring

Both drivers retire as many descriptors as the close-pointer register has moved since the last
reading, a 32-bit difference masked to the width of the register, and neither compares that number
with the number of descriptors in flight.  The ring has 1024 descriptors; the difference can be
anything up to the mask, and a card that was pulled out reads as all ones.

* `Dext.ReclaimBounded`, `Kext.ReclaimBounded` — the call retires no more than what is in flight, and
  the free count stays within the ring;
* `legalClose_iff` — **a reading retires at most what is in flight exactly when it lies between the
  last one and the tail**;
* `closeReading_bounded_iff` — in every run of either driver: every reclaim is bounded exactly when
  every reading is legal;
* `unplugged_reclaim` — what an all-ones reading does to an idle ring.
-/

namespace Rtl812x

open Circular WrapCounter Runs

/-- The distance from the last close pointer to a reading is at most that to the tail exactly when the
reading is one of the pointers up to the tail. -/
theorem legalClose_iff (m : Mcfg) {tail close clo : ℕ} (hclose : close ≤ 2 ^ 32) :
    (∃ k ≤ lag (descPtrPeriod m) tail close, clo ≡ close + k [MOD descPtrPeriod m]) ↔
      lag (descPtrPeriod m) clo close ≤ lag (descPtrPeriod m) tail close := by
  constructor
  · rintro ⟨k, hk, hmod⟩
    exact lag_le_of_modEq (descPtrPeriod_dvd m) (Nat.succ_pos _) hclose hk hmod
  · intro hle
    have hmod := lag_modEq (descPtrPeriod_dvd m) hclose clo
    rw [Nat.add_comm] at hmod
    exact ⟨_, hle, hmod.symm⟩

namespace Dext

variable {m : Mcfg} {c : Config} {cap : ℕ} {s : TxSide}

/-! ### The dext -/

/-- How many descriptors were retired so far. -/
def retired (trace : List TxEvent) : ℕ :=
  trace.countP fun
    | .retire _ => true
    | _ => false

theorem retired_append_of_offRing {es : List TxEvent} (hes : ∀ e ∈ es, e.onRing = false)
    (t : List TxEvent) : retired (es ++ t) = retired t := by
  have hzero : retired es = 0 := by
    refine List.countP_eq_zero.mpr fun e he => ?_
    have hoff := hes e he
    cases e <;> simp_all [TxEvent.onRing]
  rw [retired, List.countP_append]
  exact (congrArg (· + retired t) hzero).trans (Nat.zero_add _)

theorem txRetire_retired (abort : Bool) (s : TxSide) :
    retired (txRetire abort s).trace = retired s.trace + 1 := by
  have hrelease : retired (txRelease abort s.hw.txDirtyDescIndex s).trace = retired s.trace := by
    unfold txRelease
    split
    · rfl
    · obtain ⟨e, he, htrace⟩ := txComplete_trace _ _ _ _
      rw [htrace, ← List.singleton_append, retired_append_of_offRing (by simpa using he)]
  show retired (.retire _ :: (txRelease abort s.hw.txDirtyDescIndex s).trace) = _
  rw [← hrelease]
  exact List.countP_cons_of_pos rfl

theorem txRetireLoop_retired (abort : Bool) (numDone : ℕ) (didWork : ℕ → Bool) (s : TxSide) :
    retired (txRetireLoop abort numDone didWork s).2.trace = retired s.trace + numDone := by
  induction numDone generalizing didWork s with
  | zero => rfl
  | succ numDone ih =>
      rw [txRetireLoop, ih, txRetire_retired]
      omega

/-- **The loop of a reclaim runs `numDone` times**, whatever is in flight. -/
theorem txRingReclaim_retired (m : Mcfg) (abort : Bool) (clo : ℕ) (s : TxSide) :
    retired (txRingReclaim m abort clo s).trace = retired s.trace + s.hw.numDone m abort clo := by
  rw [txRingReclaim_eq]
  show retired (txRequests _ ++ _) = _
  rw [retired_append_of_offRing (txRequests_offRing _), txRetireLoop_retired]
  rfl

theorem txRingReclaim_rounds (m : Mcfg) (clo : ℕ) (s : TxSide) :
    retired (txRingReclaim m false clo s).trace - retired s.trace = s.hw.numDone m false clo := by
  rw [txRingReclaim_retired, Nat.add_sub_cancel_left]

/-- A reclaim retires no more than what is in flight, in at most one round of the ring, and the free
count stays within the ring. -/
structure Bounded (s s' : TxSide) : Prop where
  inFlight : retired s'.trace - retired s.trace ≤ s.hw.inFlight
  rounds : retired s'.trace - retired s.trace ≤ kNumTxDesc
  free_nonneg : 0 ≤ s'.hw.txNumFreeDesc
  free_le : s'.hw.txNumFreeDesc ≤ kNumTxDesc

def ReclaimBounded (c : Config) (d : Driver) : TxOp → Prop
  | .reclaim clo => Bounded d.tx (txStep c d (.reclaim clo)).tx
  | _ => True

theorem not_reclaimBounded {d : Driver} {clo : ℕ} (h : kNumTxDesc < d.tx.hw.numDone c.mcfg false clo) :
    ¬ ReclaimBounded c d (.reclaim clo) :=
  fun hbounded => Nat.not_lt.mpr ((txRingReclaim_rounds c.mcfg clo d.tx).symm.trans_le hbounded.rounds) h

/-- The counters agree, and no more is in flight than the ring was set up for. -/
def RingWithin (m : Mcfg) (s : TxSide) : Prop := ∃ cap, TxRingInv m cap s ∧ s.hw.inFlight ≤ cap

theorem txDequeueLoop_within {s : TxSide} (hs : TxRingInv m cap s) (hle : s.hw.inFlight ≤ cap) (q : ℕ)
    (pkts : List TxPacket) (accepted : ℕ) :
    (txDequeueLoop q pkts accepted s).2.hw.inFlight ≤ cap := by
  induction pkts generalizing accepted s with
  | nil => exact hle
  | cons pkt pkts ih =>
      rw [txDequeueLoop]
      split
      · exact hle
      · rename_i hspace
        rw [TxSide.noSpace, not_or] at hspace
        refine ih (hs.txAccept (by omega)) ?_ _
        have hplace := hs.acct.inFlight_place (by omega)
        have hfree := hs.acct.free_eq
        unfold txAccept
        split
        · exact hle
        · rw [txPlace_hw, hplace]
          omega

theorem RingWithin.txDequeueAction (hs : RingWithin m s) (linkUp : Bool) (queue : PacketQueue)
    (pkts : List TxPacket) : RingWithin m (txDequeueAction m linkUp queue pkts s).2 := by
  obtain ⟨cap, hinv, hle⟩ := hs
  refine ⟨cap, hinv.txDequeueAction, ?_⟩
  have hloop := txDequeueLoop_within hinv hle (txQueueIndex queue) pkts 0
  simp only [Dext.txDequeueAction]
  split
  · exact hle
  · split
    · exact hloop
    · exact hloop

theorem RingWithin.txRingReclaim (hs : RingWithin m s) {abort : Bool} {clo : ℕ}
    (hlegal : abort = false → LegalClose m s.hw clo) : RingWithin m (txRingReclaim m abort clo s) := by
  obtain ⟨cap, hinv, hle⟩ := hs
  have hdone := hinv.acct.numDone_le hlegal
  refine ⟨cap, hinv.txRingReclaim hlegal, ?_⟩
  rw [txRingReclaim_hw hinv.acct hdone, hinv.acct.inFlight_reclaim hdone]
  omega

theorem RingWithin.txRingReset (hs : NoOverwrite s.trace) : RingWithin m (txRingReset s) :=
  ⟨kNumTxDesc, .txRingReset hs, (by decide : TxIndex.restart.inFlight ≤ kNumTxDesc)⟩

theorem RingWithin.txKept (m : Mcfg) : TxKept m (RingWithin m) (fun _ => True) where
  requestAll := by
    rintro s ⟨cap, hs, hle⟩
    exact ⟨cap, hs.of_offRing _ txRequestDequeueAll_offRing rfl rfl, hle⟩
  reset := by
    rintro s - ⟨cap, hs, -⟩
    exact .txRingReset hs.handedIs.noOverwrite
  idle_reset _ := trivial
  linkDown := by
    rintro s ⟨cap, hs, -⟩
    have habort : TxRingInv m cap (Dext.txRingReclaim m true 0 s) := hs.txRingReclaim (by simp)
    obtain ⟨cap', hreset, hle⟩ := RingWithin.txRingReset (m := m) habort.handedIs.noOverwrite
    exact ⟨cap', hreset.of_offRing [] (by simp) rfl rfl, hle⟩
  abort := fun _ hs => hs.txRingReclaim (by simp)

/-- **Every step with a legal reading keeps it.** -/
theorem RingWithin.txStep {d : Driver} (hd : RingWithin c.mcfg d.tx) (op : TxOp)
    (hop : TxLegal c d op) : RingWithin c.mcfg (txStep c d op).tx := by
  have hkept := RingWithin.txKept c.mcfg
  cases op with
  | dequeue queue packets => exact hd.txDequeueAction _ _ _
  | reclaim clo => exact hd.txRingReclaim fun _ => hop
  | abort => exact hd.txRingReclaim (by simp)
  | enqueue queue capacity =>
      obtain ⟨cap, hs, hle⟩ := hd
      refine ⟨cap, hs.txEnqueueLoop, ?_⟩
      show (txEnqueueLoop _ _ _).2.hw.inFlight ≤ cap
      rwa [txEnqueueLoop_hw]
  | link phy phy' => exact hkept.updateLinkStatus hd fun _ => trivial
  | enable on phy phy' =>
      cases on with
      | true =>
          obtain ⟨cap, hs, -⟩ := hd
          exact hkept.enable (.txRingReset hs.handedIs.noOverwrite)
      | false => exact hkept.disable hd

theorem RingWithin.init (m : Mcfg) : RingWithin m TxSide.init :=
  ⟨0, TxRingInv.init m, by decide⟩

theorem TxAcct.legalClose_iff_numDone_le {h : TxIndex} (ha : TxAcct m cap h) (clo : ℕ) :
    LegalClose m h clo ↔ h.numDone m false clo ≤ h.inFlight := by
  rw [← ha.lag_eq]
  exact legalClose_iff m ha.close_lt.le

/-- **One reclaim**: bounded exactly when the reading is legal. -/
theorem RingWithin.reclaimBounded_iff {d : Driver} (hd : RingWithin c.mcfg d.tx) (op : TxOp) :
    ReclaimBounded c d op ↔ TxLegal c d op := by
  cases op with
  | reclaim clo =>
      have hcount := txRingReclaim_rounds c.mcfg clo d.tx
      obtain ⟨cap, hinv, hle⟩ := hd
      constructor
      · intro hbounded
        exact (hinv.acct.legalClose_iff_numDone_le clo).mpr (hcount ▸ hbounded.inFlight)
      · intro hlegal
        have hdone := (hinv.acct.legalClose_iff_numDone_le clo).mp hlegal
        have hroom := hinv.acct.room
        obtain ⟨cap', hinv', hle'⟩ := RingWithin.txStep ⟨cap, hinv, hle⟩ (.reclaim clo) hlegal
        have hfree := hinv'.acct.free_eq
        have hcap := hinv'.acct.cap_le
        exact ⟨hcount.trans_le hdone, hcount.trans_le (by omega), by omega, by omega⟩
  | dequeue _ _ | abort | enqueue _ _ | link _ _ | enable _ _ _ => exact Iff.rfl

end Dext

namespace Kext

variable {m : Mcfg} {cfg : TxConfig} {h : TxIndex} {s : TxSide} {n j : ℕ}

/-! ### The kext -/

/-- A reclaim retires no more than what is in flight, in at most one round of the ring, and the free
count stays within the ring; `txDescDoneCount` counts the rounds of the loop. -/
structure Bounded (s s' : TxSide) : Prop where
  inFlight : s'.txDescDoneCount - s.txDescDoneCount ≤ s.inFlight
  rounds : s'.txDescDoneCount - s.txDescDoneCount ≤ kNumTxDesc
  free_nonneg : 0 ≤ s'.hw.txNumFreeDesc
  free_le : s'.hw.txNumFreeDesc ≤ kNumTxDesc

def ReclaimBounded (cfg : TxConfig) (s : TxSide) : TxOp → Prop
  | .interrupt reg => Bounded s (txStep cfg s (.interrupt reg))
  | _ => True

/-- The close-pointer readings are legal. -/
def CloseLegal (cfg : TxConfig) (s : TxSide) : TxOp → Prop
  | .interrupt reg => LegalClose cfg.mcfg s.hw reg
  | _ => True

theorem retireDesc_iterate_done (k : ℕ) (s : TxSide) :
    (retireDesc^[k] s).txDescDoneCount = s.txDescDoneCount + k := by
  induction k generalizing s with
  | zero => rfl
  | succ k ih =>
      have hone : (retireDesc s).txDescDoneCount = s.txDescDoneCount + 1 := by
        simp only [retireDesc]
        split <;> rfl
      rw [Function.iterate_succ_apply, ih, hone]
      omega

/-- **The loop of `txInterrupt` runs `numDone` times**, whatever is in flight. -/
theorem txInterrupt_rounds (cfg : TxConfig) (reg : ℕ) (s : TxSide) :
    (txInterrupt cfg reg s).txDescDoneCount - s.txDescDoneCount =
      lag (descPtrPeriod cfg.mcfg) (rtl812xGetHwCloPtr (hwSuppTxNoCloseVer cfg.mcfg) reg)
        s.hw.txClosePtr0 := by
  simp only [txInterrupt, sub32_and_maxTxDescPtrMask, retireDesc_iterate_done, Nat.add_sub_cancel_left]

theorem not_reclaimBounded {reg : ℕ} (h : kNumTxDesc < lag (descPtrPeriod cfg.mcfg)
      (rtl812xGetHwCloPtr (hwSuppTxNoCloseVer cfg.mcfg) reg) s.hw.txClosePtr0) :
    ¬ ReclaimBounded cfg s (.interrupt reg) :=
  fun hbounded => Nat.not_lt.mpr ((txInterrupt_rounds cfg reg s).symm.trans_le hbounded.rounds) h

theorem RingAcct.retireAll (hr : RingAcct m s.hw n j) : ∃ n', RingAcct m (retireDesc^[j] s).hw n' 0 := by
  induction j generalizing s n with
  | zero => exact ⟨n, hr⟩
  | succ j ih =>
      obtain ⟨n, rfl⟩ : ∃ n', n = n' + 1 := ⟨n - 1, by have := hr.lag_eq; omega⟩
      refine ih (s := retireDesc s) (n := n) ?_
      rw [retireDesc_hw]
      exact hr.retire

theorem RingAcct.interrupt (ha : RingAcct cfg.mcfg s.hw n 0) {reg : ℕ}
    (hlegal : LegalClose cfg.mcfg s.hw reg) :
    ∃ n', RingAcct cfg.mcfg (txInterrupt cfg reg s).hw n' 0 := by
  simp only [txInterrupt, sub32_and_maxTxDescPtrMask]
  exact RingAcct.retireAll (s := { s with hw := { s.hw with txClosePtr0 := _ } }) (ha.retiring hlegal)

/-- A packet is mapped without touching the ring, and has at most `maxSegs` segments. -/
theorem txMapPacket_ring (cfg : TxConfig) (p : TxPacket) (maxSegs : ℕ) (r : TxMapResult)
    (vector : ℕ → Segment) (s : TxSide) :
    (txMapPacket cfg p maxSegs r vector s).2.2.hw = s.hw ∧
      (txMapPacket cfg p maxSegs r vector s).1 ≤ maxSegs := by
  have hslot : ∀ (k saveMem : ℕ) (t : TxSide), (txMapSlot p.id k saveMem r t).2.hw = t.hw := by
    intro k saveMem t
    cases r with
    | segs iova =>
        rw [txMapSlot]
        split <;> rfl
    | initFails | prepareFails | setFails => rfl
  rw [txMapPacket]
  split
  case isTrue => exact ⟨rfl, Nat.zero_le _⟩
  case isFalse hlen =>
    split
    case isFalse => exact ⟨rfl, Nat.le_of_not_lt hlen⟩
    case isTrue =>
      simp only
      split
      · exact ⟨hslot _ _ _, Nat.le_of_not_lt hlen⟩
      · exact ⟨hslot _ _ _, Nat.zero_le _⟩

theorem RingAcct.output (ha : RingAcct cfg.mcfg s.hw n 0) (o : TxOffer) :
    ∃ n', RingAcct cfg.mcfg (outputRound cfg o s).hw n' 0 := by
  rw [outputRound]
  split
  case isFalse => exact ⟨n, ha⟩
  case isTrue hfree =>
    rw [outputPacket]
    split
    case isTrue => exact ⟨n, ha⟩
    case isFalse =>
      obtain ⟨hhw, hsegs⟩ := txMapPacket_ring cfg o.pkt kMaxSegs o.result o.vector s
      simp only
      split
      case isTrue =>
        refine ⟨n, ?_⟩
        show RingAcct cfg.mcfg (txMapPacket cfg o.pkt kMaxSegs o.result o.vector s).2.2.hw n 0
        rwa [hhw]
      case isFalse =>
        rw [placePacket_frame]
        refine ⟨_, RingAcct.place (hhw.symm ▸ ha) ?_⟩
        rw [List.length_map, List.length_range]
        exact ha.fits hfree hsegs

/-- **Every step with a legal reading keeps the counters in agreement.** -/
theorem RingAcct.step (ha : RingAcct cfg.mcfg s.hw n 0) (op : TxOp) (hop : CloseLegal cfg s op) :
    ∃ n', RingAcct cfg.mcfg (txStep cfg s op).hw n' 0 := by
  cases op with
  | output o =>
      rw [txStep]
      split
      · exact ha.output o
      · exact ⟨n, ha⟩
  | doorbell =>
      rw [txStep]
      split <;> exact ⟨n, ha⟩
  | interrupt reg => exact ha.interrupt hop
  | clear => exact ⟨0, RingAcct.restart _⟩
  | link status =>
      rw [txStep, rtl812xCheckLinkStatus]
      split <;> exact ⟨0, RingAcct.restart _⟩

theorem RingAcct.legalClose_iff_lag_le (ha : RingAcct m s.hw n 0) (reg : ℕ) :
    LegalClose m s.hw reg ↔
      lag (descPtrPeriod m) (rtl812xGetHwCloPtr (hwSuppTxNoCloseVer m) reg) s.hw.txClosePtr0 ≤
        s.inFlight := by
  rw [ha.inFlight_eq, ← ha.lag_eq]
  exact legalClose_iff m ha.close_lt.le

/-- **One transmit interrupt**: bounded exactly when the reading is legal. -/
theorem RingAcct.reclaimBounded_iff (ha : RingAcct cfg.mcfg s.hw n 0) (op : TxOp) :
    ReclaimBounded cfg s op ↔ CloseLegal cfg s op := by
  cases op with
  | interrupt reg =>
      have hcount := txInterrupt_rounds cfg reg s
      constructor
      · intro hbounded
        exact (ha.legalClose_iff_lag_le reg).mpr (hcount ▸ hbounded.inFlight)
      · intro hlegal
        have hdone := (ha.legalClose_iff_lag_le reg).mp hlegal
        have hin := ha.inFlight_eq
        have hroom := ha.room
        obtain ⟨n', ha'⟩ := ha.step (.interrupt reg) hlegal
        have hfree := ha'.free_eq
        have hroom' := ha'.room
        exact ⟨hcount.trans_le hdone, hcount.trans_le (by omega), by omega, by omega⟩
  | output _ | doorbell | clear | link _ => exact Iff.rfl

end Kext

namespace Agreement

/-- **A reclaim retires at most what is in flight exactly when the reading is legal.**  In every run of
the dext and in every run of the kext: every `txRingReclaim(false)`, and every `txInterrupt`, retires
no more descriptors than are in flight, goes round its loop at most `kNumTxDesc` times and leaves the
free count between 0 and `kNumTxDesc`, exactly when every close-pointer reading lies between the last
one and the tail. -/
theorem closeReading_bounded_iff (c : Dext.Config) (dextOps : List Dext.TxOp) (cfg : Kext.TxConfig)
    (kextOps : List Kext.TxOp) :
    (Along (Dext.txStep c) (Dext.ReclaimBounded c) Dext.Driver.init dextOps ↔
      Along (Dext.txStep c) (Dext.TxLegal c) Dext.Driver.init dextOps) ∧
    (Along (Kext.txStep cfg) (Kext.ReclaimBounded cfg) Kext.TxSide.init kextOps ↔
      Along (Kext.txStep cfg) (Kext.CloseLegal cfg) Kext.TxSide.init kextOps) := by
  constructor
  · have hiff : ∀ (d : Dext.Driver) op, Dext.RingWithin c.mcfg d.tx →
        (Dext.ReclaimBounded c d op ↔ Dext.TxLegal c d op) := fun _ op hd => hd.reclaimBounded_iff op
    exact along_congr hiff (fun d op hd hop => hd.txStep op ((hiff d op hd).mp hop))
      (Dext.RingWithin.init c.mcfg)
  · have hiff : ∀ (s : Kext.TxSide) op, (∃ n, Kext.RingAcct cfg.mcfg s.hw n 0) →
        (Kext.ReclaimBounded cfg s op ↔ Kext.CloseLegal cfg s op) :=
      fun _ op ⟨_, ha⟩ => ha.reclaimBounded_iff op
    exact along_congr hiff (fun s op ⟨n, ha⟩ hop => ha.step op ((hiff s op ⟨n, ha⟩).mp hop))
      ⟨0, Kext.RingAcct.restart _⟩

/-- **The card is pulled out.**  The register of an RTL8127 then reads as all ones: on an idle ring
that has just been enabled, the dext and the kext both retire `2 ^ 31 - 1` descriptors. -/
theorem unplugged_reclaim :
    ¬ Along (Dext.txStep Dext.copperConfig) (Dext.ReclaimBounded Dext.copperConfig) Dext.Driver.init
      [.enable true Dext.phy10G Dext.phy10G, .reclaim 0xffffffff] ∧
    ¬ Along (Kext.txStep ⟨.m41, 4096, 1500⟩) (Kext.ReclaimBounded ⟨.m41, 4096, 1500⟩) Kext.TxSide.init
      [.link phyLinkStatus, .interrupt 0xffffffff] := by
  constructor
  · rintro ⟨-, hbounded, -⟩
    exact Dext.not_reclaimBounded (by decide +kernel) hbounded
  · rintro ⟨-, hbounded, -⟩
    exact Kext.not_reclaimBounded (by decide +kernel) hbounded

end Agreement

end Rtl812x
