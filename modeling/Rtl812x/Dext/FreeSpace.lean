import Rtl812x.Dext.Announce

/-!
# The free-space report and what a submission accepts

`txQueryFreeSpace` tells the framework how many packets and bytes may be submitted;
`txDequeueAction` then takes a batch.  Both look at the free descriptors and the bytes in flight,
but with different thresholds: the report counts every free descriptor, the submission loop stops
while two are left.

* `WellFormed`, `totalLength` — a batch without malformed packets, and its bytes;
* `txDequeueLoop_accepts` — a batch that fits into the byte budget is accepted up to the descriptor
  threshold, by induction over the batch;
* `txQueryFreeSpace_cases` — what a report says about the state;
* `freeSpace_agrees_iff` — **the report is kept exactly by batches that leave two of the reported
  descriptors over**, in every reachable state with the link up.
-/

namespace Rtl812x.Dext

open Runs

/-- The packet's data lies in its buffer and holds an Ethernet header. -/
def TxPacket.WellFormed (pkt : TxPacket) : Prop := (txView pkt).isSome = true

instance (pkt : TxPacket) : Decidable pkt.WellFormed := inferInstanceAs (Decidable (_ = _))

/-- The bytes of a batch. -/
def totalLength (packets : List TxPacket) : ℕ := (packets.map TxPacket.dataLength).sum

@[simp] theorem totalLength_cons (pkt : TxPacket) (packets : List TxPacket) :
    totalLength (pkt :: packets) = pkt.dataLength + totalLength packets := rfl

theorem TxPacket.WellFormed.length_pos {pkt : TxPacket} (h : pkt.WellFormed) : 0 < pkt.dataLength := by
  by_contra hzero
  have hshort : pkt.dataLength < kMacHdrLen := by
    have hlen : pkt.dataLength = 0 := by omega
    rw [hlen]
    decide
  have hnone : txView pkt = none := if_pos hshort
  rw [TxPacket.WellFormed, hnone] at h
  cases h

/-! ### What a submission accepts -/

section Submission

variable {s : TxSide} {q : ℕ} {pkt : TxPacket} {packets : List TxPacket}

/-- A well-formed packet takes one descriptor and its bytes. -/
theorem txAccept_counts (hwell : pkt.WellFormed) (hfree : 2 < s.hw.txNumFreeDesc)
    (hrange : FreeInRange s) :
    (txAccept q pkt s).hw.txNumFreeDesc = s.hw.txNumFreeDesc - 1 ∧
      (txAccept q pkt s).txInflightBytes = s.txInflightBytes + pkt.dataLength := by
  obtain ⟨iova, hview⟩ := Option.isSome_iff_exists.mp hwell
  have haccept : txAccept q pkt s = txPlace q pkt iova s := by rw [txAccept, hview]
  obtain ⟨_, hhi⟩ := hrange
  rw [haccept]
  exact ⟨osAddAtomic_eq (by omega) (by omega), rfl⟩

/-- The submission loop accepts a batch that fits into the byte budget until two descriptors are
left.  A packet is never empty, so the budget is not used up before the last one. -/
theorem txDequeueLoop_accepts (hwell : ∀ pkt ∈ packets, pkt.WellFormed) (accepted : ℕ)
    (hrange : FreeInRange s)
    (hbytes : s.txInflightBytes + totalLength packets ≤ kTxInflightBytesLimit) :
    (txDequeueLoop q packets accepted s).1 =
      accepted + min packets.length (s.hw.txNumFreeDesc - 2).toNat := by
  induction packets generalizing accepted s with
  | nil => simp [txDequeueLoop]
  | cons pkt packets ih =>
      have hpkt := hwell pkt (List.mem_cons_self ..)
      have hpos := hpkt.length_pos
      rw [totalLength_cons] at hbytes
      by_cases hfree : 2 < s.hw.txNumFreeDesc
      · have hroom : ¬ s.noSpace := (not_noSpace_iff s).mpr ⟨hfree, by omega⟩
        obtain ⟨hcount, hinflight⟩ := txAccept_counts (q := q) hpkt hfree hrange
        have hrange' : FreeInRange (txAccept q pkt s) := by
          obtain ⟨hlo, hhi⟩ := hrange
          rw [FreeInRange, hcount]
          omega
        rw [txDequeueLoop, if_neg hroom,
          ih (fun p hp => hwell p (List.mem_cons_of_mem _ hp)) (accepted + 1) hrange'
            (by rw [hinflight]; omega), hcount, List.length_cons]
        omega
      · have hfull : s.noSpace := Or.inl (by omega)
        rw [txDequeueLoop, if_pos hfull]
        omega

theorem txDequeueAction_fst (m : Mcfg) (queue : PacketQueue) (packets : List TxPacket) (s : TxSide) :
    (txDequeueAction m true queue packets s).1 =
      (txDequeueLoop (txQueueIndex queue) packets 0 s).1 := by
  simp only [txDequeueAction, Bool.not_true, Bool.false_eq_true, if_false]
  split <;> rfl

/-- Without room for a first packet nothing is accepted. -/
theorem txDequeueAction_noSpace (m : Mcfg) (queue : PacketQueue) (packets : List TxPacket)
    (hfull : s.noSpace) : (txDequeueAction m true queue packets s).1 = 0 := by
  rw [txDequeueAction_fst]
  cases packets with
  | nil => rfl
  | cons pkt packets => rw [txDequeueLoop, if_pos hfull]

end Submission

/-! ### What a report says -/

/-- A report is empty where there is no room at all; otherwise it counts every free descriptor, and
its bytes fit into the budget. -/
theorem txQueryFreeSpace_cases (s : TxSide) :
    (txQueryFreeSpace s = (0, 0) ∧ s.noSpace) ∨
      (0 < (txQueryFreeSpace s).1 ∧ ((txQueryFreeSpace s).1 : ℤ) = s.hw.txNumFreeDesc ∧
        s.txInflightBytes + (txQueryFreeSpace s).2 ≤ kTxInflightBytesLimit) := by
  by_cases hfree : s.hw.txNumFreeDesc ≤ 0
  · left
    have hnone : (if s.hw.txNumFreeDesc < 0 then 0 else s.hw.txNumFreeDesc) = 0 := by omega
    refine ⟨?_, Or.inl (by omega)⟩
    simp only [txQueryFreeSpace, hnone, or_true, if_true]
  · have hsome : (if s.hw.txNumFreeDesc < 0 then 0 else s.hw.txNumFreeDesc) = s.hw.txNumFreeDesc := by
      omega
    simp only [txQueryFreeSpace, hsome]
    split
    case isTrue hfull => exact Or.inl ⟨rfl, Or.inr (by omega)⟩
    case isFalse hroom =>
      right
      refine ⟨by omega, by omega, ?_⟩
      dsimp only
      split <;> omega

/-- **The report and the next submission.**  In every state a run reaches with the link up, for
every batch of well-formed packets: the submission accepts what was reported if and only if the
batch, where it fits into the reported bytes, is empty or leaves two of the free descriptors over;
and where nothing was reported, nothing is accepted. -/
theorem freeSpace_agrees_iff (c : Config) (ops : List DataOp) (queue : PacketQueue)
    (packets : List TxPacket) (hup : (exec (dataStep c) Driver.init ops).linkUp = true)
    (hwell : ∀ pkt ∈ packets, pkt.WellFormed) :
    let d := exec (dataStep c) Driver.init ops
    let report := txQueryFreeSpace d.tx
    let accepted := (txDequeueAction c.mcfg d.linkUp queue packets d.tx).1
    ((totalLength packets ≤ report.2 → min report.1 packets.length ≤ accepted) ∧
        (report.1 = 0 → accepted = 0)) ↔
      (totalLength packets ≤ report.2 →
        packets = [] ∨ packets.length + 2 ≤ d.tx.hw.txNumFreeDesc) := by
  intro d report accepted
  have hrange : FreeInRange d.tx :=
    @invariant_exec _ _ _ (fun d : Driver => FreeInRange d.tx) (fun _ op h => freeInRange_dataStep h op)
      _ _ (show FreeInRange TxSide.init by unfold FreeInRange; decide)
  have hlink : d.linkUp = true := hup
  rcases txQueryFreeSpace_cases d.tx with ⟨hnone, hfull⟩ | ⟨hpos, hcount, hbytes⟩
  · have hreport : report = (0, 0) := hnone
    have haccepted : accepted = 0 := by
      simp only [accepted, hlink]
      exact txDequeueAction_noSpace c.mcfg queue packets hfull
    have hempty : totalLength packets ≤ 0 → packets = [] := by
      intro hlen
      cases packets with
      | nil => rfl
      | cons pkt packets =>
          have hpkt := (hwell pkt (List.mem_cons_self ..)).length_pos
          rw [totalLength_cons] at hlen
          omega
    rw [hreport]
    exact iff_of_true ⟨fun _ => by simp, fun _ => haccepted⟩ fun hlen => Or.inl (hempty hlen)
  · have hreport : report.1 ≠ 0 := Nat.pos_iff_ne_zero.mp hpos
    rw [and_iff_left fun h => absurd h hreport]
    refine forall_congr' fun hlen => ?_
    have haccepted : accepted = min packets.length (d.tx.hw.txNumFreeDesc - 2).toNat := by
      have hfit : d.tx.txInflightBytes + totalLength packets ≤ kTxInflightBytesLimit := by
        have hlen' : ((totalLength packets : ℕ) : ℤ) ≤ (txQueryFreeSpace d.tx).2 := by exact_mod_cast hlen
        omega
      simp only [accepted, hlink]
      rw [txDequeueAction_fst, txDequeueLoop_accepts hwell 0 hrange hfit, Nat.zero_add]
    have hn : (report.1 : ℤ) = d.tx.hw.txNumFreeDesc := hcount
    rw [haccepted, ← List.length_eq_zero_iff]
    omega

/-- Five packets were submitted and the chip has closed two of them. -/
def threeInFlight (queue : PacketQueue) : List DataOp :=
  linkedRun ++ [.tx (.dequeue queue ((List.range 5).map plainPacket)), .tx (.reclaim 2)]

/-- With three packets in flight, a batch of four is accepted as reported. -/
theorem freeSpace_agrees_batch :
    let d := exec (dataStep copperConfig) Driver.init (threeInFlight (.txSub 0))
    let batch := [plainPacket 5, plainPacket 6, plainPacket 7, plainPacket 8]
    txQueryFreeSpace d.tx = (1021, 4194124) ∧
      min (txQueryFreeSpace d.tx).1 batch.length ≤
        (txDequeueAction .m41 d.linkUp (.txSub 0) batch d.tx).1 := by
  intro d batch
  have hwell : ∀ pkt ∈ batch, pkt.WellFormed := by decide +kernel
  refine ⟨by decide +kernel, ((freeSpace_agrees_iff copperConfig (threeInFlight (.txSub 0)) (.txSub 0)
    batch (by decide +kernel) hwell).mpr fun _ => Or.inr ?_).1 ?_⟩
  · decide +kernel
  · decide +kernel

theorem totalLength_plainPackets (ids : List ℕ) :
    totalLength (ids.map plainPacket) = 60 * ids.length := by
  induction ids with
  | nil => rfl
  | cons i ids ih =>
      rw [List.map_cons, totalLength_cons, ih, List.length_cons]
      show 60 + _ = _
      omega

/-- On an idle ring 1024 packets are reported, and of 1023 small ones the last is refused. -/
theorem reported_batch_refused :
    let d := exec (dataStep copperConfig) Driver.init linkedRun
    let batch := (List.range 1023).map plainPacket
    d.linkUp = true ∧ (∀ pkt ∈ batch, pkt.WellFormed) ∧
      txQueryFreeSpace d.tx = (1024, 4194304) ∧ totalLength batch = 61380 ∧ batch.length = 1023 ∧
      (txDequeueAction .m41 d.linkUp (.txSub 0) batch d.tx).1 = 1022 := by
  intro d batch
  have hup : d.linkUp = true := by decide +kernel
  have hwell : ∀ pkt ∈ batch, pkt.WellFormed := by
    intro pkt hpkt
    obtain ⟨i, _, rfl⟩ := List.mem_map.mp hpkt
    rfl
  have htotal : totalLength batch = 61380 := by
    rw [totalLength_plainPackets, List.length_range]
  have hlen : batch.length = 1023 := by rw [List.length_map, List.length_range]
  have hfree : d.tx.hw.txNumFreeDesc = 1024 := by decide +kernel
  have hinflight : d.tx.txInflightBytes = 0 := by decide +kernel
  refine ⟨hup, hwell, by decide +kernel, htotal, hlen, ?_⟩
  rw [hup, txDequeueAction_fst, txDequeueLoop_accepts hwell 0, hlen, hfree]
  · decide
  · rw [FreeInRange, hfree]
    decide
  · rw [hinflight, htotal]
    decide

end Rtl812x.Dext
