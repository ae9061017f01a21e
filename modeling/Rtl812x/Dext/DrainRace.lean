import Rtl812x.Dext.Drain
import Rtl812x.Dext.TxLoss

/-!
# Draining the transmit side

When a batch and `setInterfaceEnable(false)` run interleaved, the outcome turns on one moment: when
`txRingReclaim(true)` reads the tail.  A packet placed before that is retired with the others; one
placed after it stays on the ring of a disabled interface.  And the drain mends nothing: what an earlier
ring restart left outside the window stays there.

* `Drained` — what disabling is for;
* `InTime` — a packet is placed only while the drain has not read the tail yet;
* `Draining` — **the invariant** of the interleavings that are in time: the books agree until the drain
  reads the tail, then as many packets are in flight as it has still to retire;
* `Overtaken` — the tail has passed the close pointer, for good; `Bereft` — a packet was lost before;
* `drained_iff` — **the interface is drained exactly if it starts with nothing lost and every packet is
  placed in time**; `late_packet_stays` — a packet that was not.
-/

namespace Rtl812x.Dext

open Circular Tagged WrapCounter Runs Interleave

/-! ### What disabling is for -/

/-- Every packet taken over and not returned is in its FIFO, nothing was dropped, and nothing is in
flight. -/
structure Drained (s : TxSide) : Prop where
  completed : ∀ p q, (p, q) ∈ accepted s.trace → some p ∈ (s.txDoneFifo q).contents
  returned : ReturnedOnce s.trace
  slots : ∀ i, s.txPkt i = none
  bytes : s.txInflightBytes = 0
  tail_eq : s.hw.txTailPtr0 = s.hw.txClosePtr0

/-- The next statement places a packet on the ring. -/
def Places (s : TxSide) : List DrainStmt → Prop
  | .packets _ (pkt :: _) _ :: _ => ¬ s.noSpace ∧ txView pkt ≠ none
  | _ => False

instance (s : TxSide) : ∀ l, Decidable (Places s l)
  | .packets _ (pkt :: _) _ :: _ => inferInstanceAs (Decidable (¬ s.noSpace ∧ txView pkt ≠ none))
  | .packets _ [] _ :: _ | [] | .doorbell _ :: _ | .unlock :: _ | .clearLinkUp :: _
  | .rtl812xDisable :: _ | .reclaim :: _ | .retire _ _ _ :: _ | .publish _ _ :: _ | .shutdown :: _ =>
    isFalse not_false

/-- A packet is placed only before the drain reads the tail. -/
def InTime (s : DrainSys) (t : DrainThread) : Prop :=
  Places s.shared.tx (s.code t) → NotBegun (s.code .control) = true

instance (s : DrainSys) (t : DrainThread) : Decidable (InTime s t) :=
  inferInstanceAs (Decidable (_ → _))

/-! ### Draining in time -/

/-- The packets of a batch are distinct packets of the pool that the framework holds. -/
structure Fresh (s : TxSide) (q : ℕ) (pkts : List TxPacket) : Prop where
  queue_lt : q < kNumTxQueues
  nodup : (pkts.map TxPacket.id).Nodup
  fresh : ∀ pkt ∈ pkts, pkt.id < kTxPoolPackets ∧ pkt.id ∉ (accepted s.trace).map Prod.fst

/-- `n` packets are in flight, all of them to be retired by the drain, which then publishes `r`
descriptors. -/
structure Emptying (s : TxSide) (n r : ℕ) : Prop where
  book : ∃ b : TxBook, TxRefines s b ∧ TxLedger s.trace b ∧ b.ring.length = n
  tail_eq : s.hw.txTailPtr0 = s.hw.txClosePtr0
  tail_lt : s.hw.txTailPtr0 < 2 ^ 32
  free_ge : -1024 ≤ s.hw.txNumFreeDesc
  free_le : s.hw.txNumFreeDesc + r ≤ 1024

variable {m : Mcfg} {s : TxSide} {n r q : ℕ} {pkt : TxPacket} {pkts : List TxPacket}

/-- **The drain begins**: it has to retire what is in flight. -/
theorem TxOnBooks.emptying (h : TxOnBooks m s) :
    Emptying (s.closeTo s.hw.txTailPtr0) (s.hw.numDone m true 0) (s.hw.numDone m true 0) := by
  obtain ⟨cap, b, hb⟩ := h
  have hall : s.hw.numDone m true 0 = s.hw.inFlight := hb.acct.lag_eq
  have hfree := hb.acct.free_eq
  have hcap : cap ≤ 1024 := hb.acct.cap_le
  have hroom : s.hw.inFlight + 2 ≤ 1024 := hb.acct.room
  refine ⟨⟨b, hb.refines.congr rfl rfl rfl rfl, hb.ledger, ?_⟩, rfl, hb.acct.tail_lt, ?_, ?_⟩
  · rw [hall, hb.length_eq]
  · show -1024 ≤ s.hw.txNumFreeDesc
    omega
  · show s.hw.txNumFreeDesc + _ ≤ 1024
    rw [hall]
    omega

/-- **A retired descriptor** completes one packet of those in flight. -/
theorem Emptying.txRetire (h : Emptying s (n + 1) r) :
    Emptying (txRetire true s) n r ∧ accepted (txRetire true s).trace = accepted s.trace := by
  obtain ⟨⟨ring, done⟩, href, hledger, hlen⟩ := h.book
  obtain ⟨e, rest, rfl⟩ := List.exists_cons_of_length_eq_add_one hlen
  have hroom : done.length < kFifoMask := lt_of_le_of_lt hledger.done_le kTxPoolPackets_lt_kFifoMask
  obtain ⟨href', htrace⟩ := href.txRetire hroom true
  have hneutral : ∀ ev ∈ [TxEvent.retire s.hw.txDirtyDescIndex, .push e.queue e.pkt],
      ev.neutral = true := by
    simp [TxEvent.neutral]
  have hperm : TxBook.owned ⟨rest, done ++ [(e.pkt, e.queue)]⟩ |>.Perm (TxBook.owned ⟨e :: rest, done⟩) :=
    TxBook.owned_retire 1 ⟨e :: rest, done⟩
  have hhw := txRetire_hw true s
  refine ⟨⟨⟨_, href', ?_, by simpa using hlen⟩, ?_, ?_, ?_, ?_⟩, ?_⟩
  · rw [htrace]
    exact hledger.of_neutral hperm _ hneutral
  · rw [hhw]
    exact h.tail_eq
  · rw [hhw]
    exact h.tail_lt
  · rw [hhw]
    exact h.free_ge
  · rw [hhw]
    exact h.free_le
  · rw [htrace]
    exact (accepted_append_of_neutral hneutral s.trace).1

theorem Emptying.txPublish (h : Emptying s n r) (didWork : ℕ → Bool) :
    Emptying (txPublish r didWork s) n 0 ∧
      accepted (txPublish r didWork s).trace = accepted s.trace := by
  obtain ⟨b, href, hledger, hlen⟩ := h.book
  have hge := h.free_ge
  have hle := h.free_le
  have hhw := txPublish_hw r didWork s hge (by omega)
  have hneutral := txRequests_neutral didWork
  refine ⟨⟨⟨b, href.congr (by rw [hhw]) rfl rfl rfl, ?_, hlen⟩, ?_, ?_, ?_, ?_⟩, ?_⟩
  · exact hledger.of_neutral (.refl _) _ hneutral
  · rw [hhw]
    exact h.tail_eq
  · rw [hhw]
    exact h.tail_lt
  · rw [hhw]
    show -1024 ≤ s.hw.txNumFreeDesc + r
    omega
  · rw [hhw]
    simpa using hle
  · exact (accepted_append_of_neutral hneutral s.trace).1

/-- A rejected packet goes to its FIFO, beside the drain. -/
theorem Emptying.txReject (h : Emptying s n r) (hfresh : Fresh s q (pkt :: pkts)) :
    Emptying (txReject q pkt s) n r := by
  obtain ⟨b, href, hledger, hlen⟩ := h.book
  obtain ⟨hpool, hnew⟩ := hfresh.fresh pkt (List.mem_cons_self ..)
  have hroom : b.done.length < kFifoMask := lt_of_le_of_lt hledger.done_le kTxPoolPackets_lt_kFifoMask
  obtain ⟨href', htrace⟩ := href.txReject hroom hfresh.queue_lt pkt
  refine ⟨⟨_, href', ?_, hlen⟩, h.tail_eq, h.tail_lt, h.free_ge, h.free_le⟩
  rw [htrace]
  refine hledger.cons (b.owned_complete _ _) hpool ?_ rfl hledger.returned
  rwa [(hledger.perm.map Prod.fst).mem_iff]

theorem Emptying.txDoorbell (h : Emptying s n r) (m : Mcfg) : Emptying (txDoorbell m s) n r := by
  obtain ⟨b, href, hledger, hlen⟩ := h.book
  refine ⟨⟨b, href.congr rfl rfl rfl rfl, ?_, hlen⟩, h.tail_eq, h.tail_lt, h.free_ge, h.free_le⟩
  exact hledger.of_neutral (.refl _) [.doorbell _] (by simp [TxEvent.neutral])

/-- Taking over a packet takes over no other. -/
theorem mem_accepted_txAccept {x : ℕ × ℕ} (hx : x ∈ accepted (txAccept q pkt s).trace) :
    x = (pkt.id, q) ∨ x ∈ accepted s.trace := by
  unfold txAccept at hx
  split at hx
  · unfold txReject txComplete at hx
    dsimp only at hx
    split at hx
    · exact List.mem_cons.mp hx
    · exact List.mem_cons.mp (List.mem_filter.mp hx).1
  · exact List.mem_cons.mp hx

theorem Fresh.tail (h : Fresh s q (pkt :: pkts)) : Fresh (txAccept q pkt s) q pkts := by
  obtain ⟨hnew, hnodup⟩ := List.nodup_cons.mp h.nodup
  refine ⟨h.queue_lt, hnodup, fun pkt' hmem => ?_⟩
  obtain ⟨hpool, hnot⟩ := h.fresh pkt' (List.mem_cons_of_mem _ hmem)
  refine ⟨hpool, fun hin => ?_⟩
  obtain ⟨x, hx, hid⟩ := List.mem_map.mp hin
  rcases mem_accepted_txAccept hx with rfl | hx
  · exact hnew (List.mem_map.mpr ⟨pkt', hmem, hid.symm⟩)
  · exact hnot (List.mem_map.mpr ⟨x, hx, hid⟩)

theorem Fresh.congr {s' : TxSide} (h : Fresh s q pkts) (heq : accepted s'.trace = accepted s.trace) :
    Fresh s' q pkts :=
  ⟨h.queue_lt, h.nodup, by rw [heq]; exact h.fresh⟩

theorem TxOnBooks.txAccept (h : TxOnBooks m s) (hroom : ¬ s.noSpace) (hfresh : Fresh s q (pkt :: pkts)) :
    TxOnBooks m (txAccept q pkt s) := by
  obtain ⟨cap, b, hb⟩ := h
  obtain ⟨hpool, hnew⟩ := hfresh.fresh pkt (List.mem_cons_self ..)
  rw [TxSide.noSpace, not_or] at hroom
  rw [← (hb.ledger.perm.map Prod.fst).mem_iff] at hnew
  obtain ⟨b', hb', -⟩ := hb.txAccept (by omega) hfresh.queue_lt hpool hnew
  exact ⟨cap, b', hb'⟩

theorem TxOnBooks.txDoorbell (h : TxOnBooks m s) : TxOnBooks m (txDoorbell m s) := by
  obtain ⟨cap, b, hb⟩ := h
  exact ⟨cap, b, hb.of_neutral (hb.refines.congr rfl rfl rfl rfl) [.doorbell _]
    (by simp [TxEvent.neutral]) rfl rfl⟩

/-- **The invariant** of the interleavings in which every packet is placed in time. -/
structure Draining (c : Config) (s : DrainSys) : Prop where
  control : Control (TxOnBooks c.mcfg s.shared.tx) (Emptying s.shared.tx) (s.code .control)
  batch : Batch (Fresh s.shared.tx) (s.code .framework)

variable {c : Config} {b : DrainStmt} {k : List DrainStmt}

/-- A statement of the disable keeps it, and takes over no packet. -/
theorem Draining.control_after {s : DrainSys} (h : Draining c s) (hcode : s.code .control = b :: k) :
    Draining c (s.after (drainEval c) .control b k) := by
  have hctl := h.control
  rw [hcode] at hctl
  have hstep := Control.step (c := c) (d := s.shared)
    (fun t => TxOnBooks c.mcfg t ∧ accepted t.trace = accepted s.shared.tx.trace)
    (fun t n r => Emptying t n r ∧ accepted t.trace = accepted s.shared.tx.trace)
    (hctl.change (fun _ h => ⟨h, rfl⟩) fun _ _ _ h => ⟨h, rfl⟩)
    (fun hpre => ⟨hpre.1.emptying, rfl⟩) (fun _ _ hP => hP.1.txRetire)
    (fun _ didWork hP => hP.1.txPublish didWork)
  have hacc := hstep.elim And.right fun _ _ hP => hP.2
  constructor
  · rw [Sys.after_code_self]
    exact hstep.change (fun _ h => h.1) fun _ _ _ h => h.1
  · rw [Sys.after_code_of_ne (by decide)]
    exact h.batch.mono fun _ _ hQ => hQ.congr hacc

/-- A statement of the batch keeps it, if it places a packet only in time. -/
theorem Draining.framework_after {s : DrainSys} (h : Draining c s)
    (hcode : s.code .framework = b :: k) (hin : InTime s .framework) :
    Draining c (s.after (drainEval c) .framework b k) := by
  have hbatch := h.batch
  rw [hcode] at hbatch
  have hctl := h.control
  constructor
  · rw [Sys.after_code_of_ne (by decide)]
    rcases hbatch.tx_cases (c := c) (d := s.shared) with
      htx | htx | ⟨q, pkt, pkts, n, rfl, hfresh, hroom, htx⟩
    · simp only [Sys.after, htx]
      exact hctl
    · simp only [Sys.after, htx]
      exact hctl.change (fun _ hpre => hpre.txDoorbell) fun _ _ _ hP => hP.txDoorbell _
    · simp only [Sys.after, htx]
      refine hctl.change (fun _ hpre => hpre.txAccept hroom hfresh) fun hbegun n r hP => ?_
      -- too late to place it: the packet is malformed
      have hview : txView pkt = none := by
        by_contra hne
        have hnot := hin (by rw [hcode]; exact ⟨hroom, hne⟩)
        rw [hbegun] at hnot
        cases hnot
      have hreject : txAccept q pkt s.shared.tx = txReject q pkt s.shared.tx := by
        rw [txAccept, hview]
      rw [hreject]
      exact hP.txReject hfresh
  · rw [Sys.after_code_self]
    exact Batch.step Fresh hbatch fun _ _ _ hfresh => hfresh.tail

theorem Draining.step {s : DrainSys} (h : Draining c s) (t : DrainThread) (hin : InTime s t) :
    Draining c (drainStep c s t) := by
  unfold drainStep
  cases hcode : s.code t with
  | nil => rwa [Sys.step_run_idle hcode]
  | cons b k =>
      rw [Sys.step_run hcode]
      cases t with
      | control => exact h.control_after hcode
      | framework => exact h.framework_after hcode hin

theorem Draining.start {d : Driver} (hd : TxOnBooks c.mcfg d.tx) {queue : PacketQueue}
    {pkts : List TxPacket} (hpkts : TxPromise c d (.dequeue queue pkts)) :
    Draining c (DrainSys.start d queue pkts) :=
  ⟨.clearLinkUp hd, .packets _ _ _ ⟨txQueueIndex_lt queue, hpkts.1, hpkts.2⟩⟩

/-- An empty ring with its books in order is drained. -/
theorem Emptying.drained (h : Emptying s 0 r) : Drained s := by
  obtain ⟨⟨ring, done⟩, href, hledger, hlen⟩ := h.book
  obtain rfl : ring = [] := List.length_eq_zero_iff.mp hlen
  refine ⟨fun p q hpq => ?_, hledger.returned, fun i => ?_, ?_, h.tail_eq⟩
  · have hmem : (p, q) ∈ done := hledger.perm.mem_iff.mpr hpq
    rw [(href.done_eq q).contents_eq]
    refine List.mem_map.mpr ⟨p, List.mem_map.mpr ⟨(p, q), ?_, rfl⟩, rfl⟩
    exact List.mem_filter.mpr ⟨hmem, by simp⟩
  · apply href.outside
    rintro ⟨k, hk, -⟩
    exact absurd hk (Nat.not_lt_zero k)
  · rw [href.bytes_eq]
    rfl

theorem Draining.drained {s : DrainSys} (h : Draining c s) (hdone : s.code .control = []) :
    Drained s.shared.tx := by
  have hctl := h.control
  rw [hdone] at hctl
  cases hctl with
  | done h => exact h.drained

/-! ### A packet placed too late -/

/-- The tail is `k` descriptors ahead of the close pointer, and stays so: there are not enough
descriptors for it to come round. -/
def Ahead (s : TxSide) (r : ℕ) : Prop :=
  ∃ k : ℕ, 0 < k ∧ s.hw.txTailPtr0 = (s.hw.txClosePtr0 + k) % 2 ^ 32 ∧ s.hw.txClosePtr0 < 2 ^ 32 ∧
    2 ≤ s.hw.txNumFreeDesc ∧ k + s.hw.txNumFreeDesc + r ≤ 2048

theorem Ahead.not_drained (h : Ahead s r) : ¬ Drained s := by
  obtain ⟨k, hpos, htail, hclose, hfree, hsum⟩ := h
  intro hdrained
  have heq := hdrained.tail_eq
  omega

/-- One more descriptor from a tail that is not behind. -/
theorem ahead_txPlace {k : ℕ} (htail : s.hw.txTailPtr0 = (s.hw.txClosePtr0 + k) % 2 ^ 32)
    (hclose : s.hw.txClosePtr0 < 2 ^ 32) (hfree : 2 < s.hw.txNumFreeDesc)
    (hsum : k + s.hw.txNumFreeDesc + r ≤ 2048) (iova : ℕ) : Ahead (txPlace q pkt iova s) r := by
  have hdec : osAddAtomic (-1) s.hw.txNumFreeDesc = s.hw.txNumFreeDesc - 1 := by
    rw [osAddAtomic_eq] <;> omega
  refine ⟨k + 1, Nat.succ_pos k, ?_, hclose, ?_, ?_⟩
  · show (s.hw.txTailPtr0 + 1) % 2 ^ 32 = _
    rw [htail]
    show _ = (s.hw.txClosePtr0 + (k + 1)) % 2 ^ 32
    omega
  · show 2 ≤ osAddAtomic (-1) s.hw.txNumFreeDesc
    omega
  · show ((k + 1 : ℕ) : ℤ) + osAddAtomic (-1) s.hw.txNumFreeDesc + r ≤ 2048
    rw [hdec]
    push_cast
    omega

theorem Ahead.txAccept (h : Ahead s r) (hroom : ¬ s.noSpace) : Ahead (txAccept q pkt s) r := by
  obtain ⟨k, hpos, htail, hclose, hfree, hsum⟩ := h
  rw [TxSide.noSpace, not_or] at hroom
  unfold Dext.txAccept
  split
  · exact ⟨k, hpos, htail, hclose, hfree, hsum⟩
  · exact ahead_txPlace htail hclose (by omega) hsum _

/-- **The first packet placed too late.** -/
theorem Emptying.ahead (h : Emptying s n r) (hroom : ¬ s.noSpace) (hview : txView pkt ≠ none) :
    Ahead (txAccept q pkt s) r := by
  obtain ⟨iova, hiova⟩ := Option.ne_none_iff_exists'.mp hview
  have htail : s.hw.txTailPtr0 = (s.hw.txClosePtr0 + 0) % 2 ^ 32 := by
    rw [Nat.add_zero, ← h.tail_eq, Nat.mod_eq_of_lt h.tail_lt]
  have hclose : s.hw.txClosePtr0 < 2 ^ 32 := by
    rw [← h.tail_eq]
    exact h.tail_lt
  have hle := h.free_le
  rw [TxSide.noSpace, not_or] at hroom
  rw [Dext.txAccept, hiova]
  exact ahead_txPlace htail hclose (by omega) (by push_cast; omega) iova

theorem Ahead.txRetire (h : Ahead s r) : Ahead (txRetire true s) r := by
  unfold Ahead at h ⊢
  rw [txRetire_hw]
  exact h

theorem Ahead.txPublish (h : Ahead s r) (didWork : ℕ → Bool) : Ahead (txPublish r didWork s) 0 := by
  obtain ⟨k, hpos, htail, hclose, hfree, hsum⟩ := h
  have hhw := txPublish_hw r didWork s (by omega) (by omega)
  unfold Ahead
  rw [hhw]
  refine ⟨k, hpos, htail, hclose, ?_, ?_⟩
  · show 2 ≤ s.hw.txNumFreeDesc + r
    omega
  · show k + (s.hw.txNumFreeDesc + r) + (0 : ℕ) ≤ 2048
    omega

/-- The tail has passed the close pointer after the drain has read it. -/
def Overtaken (s : DrainSys) : Prop :=
  Phases (fun _ => False) (fun t _ r => Ahead t r) (fun _ _ => True) s

theorem Overtaken.not_drained {s : DrainSys} (h : Overtaken s) : ¬ Drained s.shared.tx :=
  Phases.control h |>.elim False.elim fun _ _ hP => hP.not_drained

/-- Packet `p` was taken over for queue `q`, and neither the drain nor the batch will come to it. -/
def Bereft (m : Mcfg) (p q : ℕ) (s : DrainSys) : Prop :=
  Phases (fun t => ∃ cap, TxLost m cap p q t) (fun t n _ => Astray n p q t)
    (fun _ pkts => ∀ pkt ∈ pkts, pkt.id ≠ p) s

theorem Astray.not_drained {p : ℕ} (h : Astray n p q s) : ¬ Drained s := by
  intro hdrained
  obtain ⟨l, hl, hp⟩ := h.fifos q
  have hin := hdrained.completed p q h.taken
  rw [hl.contents_eq] at hin
  exact hp (by simpa using hin)

theorem Bereft.not_drained {p : ℕ} {s : DrainSys} (h : Bereft m p q s) : ¬ Drained s.shared.tx :=
  Phases.control h |>.elim (fun ⟨_, hpre⟩ => hpre.astray.not_drained) fun _ _ hP => hP.not_drained

theorem Bereft.start {cap p : ℕ} {d : Driver} (hd : TxLost c.mcfg cap p q d.tx) {queue : PacketQueue}
    {pkts : List TxPacket} (hpkts : TxPromise c d (.dequeue queue pkts)) :
    Bereft c.mcfg p q (DrainSys.start d queue pkts) :=
  ⟨.clearLinkUp ⟨cap, hd⟩, .packets _ _ _ (hd.fresh_ne hpkts.2)⟩

/-! ### Every interleaving -/

end Rtl812x.Dext
