import Rtl812x.Kext.TxInStep

/-!
# What `txMapPacket` reports

`txMapPacket` returns the number of segments it has mapped, and 0 if it has mapped none; `outputStart`
writes a descriptor for each entry of the segment array that the number covers.  The calls on the
memory descriptor and the DMA command can fail at six places, and all of them leave through
`error_map`, which gives the slot back.  The branch around them, for want of a slot, leaves with the
number of segments of the packet.

* `Reported` — a number above 0 comes with its entries written and one slot taken, 0 with the slots as
  they were;
* `FindsSlot` — a packet of at most `kMaxSegs` segments, and at least one, finds a slot;
* `txMapPacket_reported_iff` — **`Reported` holds of a call exactly when it `FindsSlot`**;
* `mapExhausted_not_reported` — 511 short packets in flight, and one more.
-/

namespace Rtl812x.Kext

open Runs

variable {cfg : TxConfig} {p : TxPacket} {r : TxMapResult} {vector : ℕ → Segment} {s : TxSide}

/-- The entry of the segment array for segment `i`: the device address of its page and its offset, and
its length. -/
def IsDeviceSegment (cfg : TxConfig) (p : TxPacket) (iova : ℕ → Option ℕ) (i : ℕ) (entry : Segment) : Prop :=
  ∃ seg a, (virtualSegments cfg.pageSize p.chain)[i]? = some seg ∧ iova i = some a ∧
    entry = ⟨a + seg.location % cfg.pageSize, seg.length⟩

/-- What a call returned agrees with what it did. -/
structure Reported (cfg : TxConfig) (p : TxPacket) (r : TxMapResult) (s : TxSide)
    (result : ℕ × (ℕ → Segment) × TxSide) : Prop where
  /-- the call wrote every entry that the number covers -/
  written : 0 < result.1 → ∃ iova, r = .segs iova ∧
    ∀ i < result.1, IsDeviceSegment cfg p iova i (result.2.1 i)
  /-- and took one slot -/
  taken : 0 < result.1 → result.2.2.txNumFreeMem = s.txNumFreeMem - 1 ∧
    result.2.2.txNextMem2Use = (s.txNextMem2Use + 1) &&& kTxMemDescMask
  /-- a call that returned 0 took none -/
  kept : result.1 = 0 → result.2.2.txNumFreeMem = s.txNumFreeMem ∧
    result.2.2.txNextMem2Use = s.txNextMem2Use

/-- A packet that is not refused for its number of segments has one at least, and finds a slot to
spare; one without any byte does not get as far as a slot that is mapped for it. -/
def FindsSlot (cfg : TxConfig) (p : TxPacket) (r : TxMapResult) (s : TxSide) : Prop :=
  (virtualSegments cfg.pageSize p.chain).length ≤ kMaxSegs →
    ((virtualSegments cfg.pageSize p.chain).length ≠ 0 → 1 < s.txNumFreeMem) ∧
    ((virtualSegments cfg.pageSize p.chain).length = 0 → 1 < s.txNumFreeMem → ∀ iova, r ≠ .segs iova)

/-! ### The exits -/

theorem takeMem_counters (pageSize : ℕ) (segs : List Segment) (s : TxSide) :
    (takeMem pageSize segs s).txNumFreeMem = s.txNumFreeMem - 1 ∧
      (takeMem pageSize segs s).txNextMem2Use = (s.txNextMem2Use + 1) &&& kTxMemDescMask :=
  ⟨rfl, rfl⟩

/-- **The calls on a slot**: they succeed, and the counters stay as `takeMem` left them, or they fail
and the slot is given back. -/
theorem txMapSlot_counters (pkt n saveMem : ℕ) (r : TxMapResult) (t : TxSide) :
    ((txMapSlot pkt n saveMem r t).1 = true ∧
      (∃ iova, r = .segs iova ∧ ∀ i < n, (iova i).isSome = true) ∧
      (txMapSlot pkt n saveMem r t).2.txNumFreeMem = t.txNumFreeMem ∧
      (txMapSlot pkt n saveMem r t).2.txNextMem2Use = t.txNextMem2Use) ∨
    ((txMapSlot pkt n saveMem r t).1 = false ∧
      (∀ iova, r = .segs iova → ∃ i < n, iova i = none) ∧
      (txMapSlot pkt n saveMem r t).2.txNumFreeMem = t.txNumFreeMem + 1 ∧
      (txMapSlot pkt n saveMem r t).2.txNextMem2Use = saveMem) := by
  cases r with
  | segs iova =>
      rw [txMapSlot]
      split
      case isTrue hall =>
        rw [List.all_eq_true] at hall
        exact Or.inl ⟨rfl, ⟨iova, rfl, fun i hi => hall i (List.mem_range.mpr hi)⟩, rfl, rfl⟩
      case isFalse hsome =>
        refine Or.inr ⟨rfl, ?_, rfl, rfl⟩
        intro iova' heq
        cases heq
        simp only [List.all_eq_true, List.mem_range, not_forall, Bool.not_eq_true,
          Option.isSome_eq_false_iff, Option.isNone_iff_eq_none] at hsome
        obtain ⟨i, hi, hnone⟩ := hsome
        exact ⟨i, hi, hnone⟩
  | initFails | prepareFails | setFails =>
      exact Or.inr ⟨rfl, fun _ h => (by cases h), rfl, rfl⟩

/-- The entries written for a packet whose pages were all mapped. -/
theorem deviceSegments_isDeviceSegment {iova : ℕ → Option ℕ} {i : ℕ}
    (hi : i < (virtualSegments cfg.pageSize p.chain).length) (hiova : (iova i).isSome = true) :
    IsDeviceSegment cfg p iova i
      (deviceSegments cfg.pageSize (virtualSegments cfg.pageSize p.chain) (.segs iova) i) := by
  obtain ⟨a, ha⟩ := Option.isSome_iff_exists.mp hiova
  refine ⟨(virtualSegments cfg.pageSize p.chain)[i], a, List.getElem?_eq_getElem hi, ha, ?_⟩
  simp only [deviceSegments, ha, Option.getD_some, List.getD_eq_getElem _ _ hi]

/-- The call with a slot to spare. -/
theorem txMapPacket_of_slot (hlen : (virtualSegments cfg.pageSize p.chain).length ≤ kMaxSegs)
    (hfree : 1 < s.txNumFreeMem) :
    Reported cfg p r s (txMapPacket cfg p kMaxSegs r vector s) ↔
      ((virtualSegments cfg.pageSize p.chain).length = 0 → ∀ iova, r ≠ .segs iova) := by
  have hcounters := takeMem_counters cfg.pageSize (virtualSegments cfg.pageSize p.chain) s
  rw [txMapPacket, if_neg (Nat.not_lt.mpr hlen), if_pos hfree]
  obtain ⟨hok, ⟨iova, rfl, hall⟩, hnum, huse⟩ | ⟨hfail, hnone, hnum, huse⟩ :=
    txMapSlot_counters p.id (virtualSegments cfg.pageSize p.chain).length s.txNextMem2Use r
      (takeMem cfg.pageSize (virtualSegments cfg.pageSize p.chain) s)
  · rw [if_pos hok]
    constructor
    · -- a packet without a byte was mapped: 0 is returned and the slot is gone
      intro hrep hzero
      have hkept := (hrep.kept hzero).1
      change (txMapSlot _ _ _ _ _).2.txNumFreeMem = s.txNumFreeMem at hkept
      rw [hnum, hcounters.1] at hkept
      omega
    · intro hsegs
      refine ⟨fun _ => ⟨iova, rfl, fun i hi => deviceSegments_isDeviceSegment hi (hall i hi)⟩,
        fun _ => ⟨hnum.trans hcounters.1, huse.trans hcounters.2⟩, fun hzero => ?_⟩
      exact absurd rfl (hsegs hzero iova)
  · rw [if_neg (by rw [hfail]; decide)]
    refine iff_of_true ⟨fun h => absurd h (Nat.lt_irrefl 0), fun h => absurd h (Nat.lt_irrefl 0), fun _ =>
      ⟨?_, huse⟩⟩ ?_
    · rw [hnum, hcounters.1]
      omega
    · rintro hzero iova rfl
      obtain ⟨i, hi, -⟩ := hnone iova rfl
      omega

/-- The call without one: the number of segments is returned, and nothing was done. -/
theorem txMapPacket_of_no_slot (hlen : (virtualSegments cfg.pageSize p.chain).length ≤ kMaxSegs)
    (hfree : ¬ 1 < s.txNumFreeMem) (vector : ℕ → Segment) :
    txMapPacket cfg p kMaxSegs r vector s = ((virtualSegments cfg.pageSize p.chain).length, vector, s) := by
  rw [txMapPacket, if_neg (Nat.not_lt.mpr hlen), if_neg hfree]

/-- **What `txMapPacket` reports is what it did exactly when the packet finds a slot.**  This is for
every packet, every state and every outcome of the calls. -/
theorem txMapPacket_reported_iff (cfg : TxConfig) (p : TxPacket) (r : TxMapResult)
    (vector : ℕ → Segment) (s : TxSide) :
    Reported cfg p r s (txMapPacket cfg p kMaxSegs r vector s) ↔ FindsSlot cfg p r s := by
  unfold FindsSlot
  by_cases hlen : (virtualSegments cfg.pageSize p.chain).length ≤ kMaxSegs
  · by_cases hfree : 1 < s.txNumFreeMem
    · rw [txMapPacket_of_slot hlen hfree]
      exact ⟨fun h _ => ⟨fun _ => hfree, fun hzero _ => h hzero⟩, fun h hzero => (h hlen).2 hzero hfree⟩
    · rw [txMapPacket_of_no_slot hlen hfree]
      constructor
      · intro hrep _
        refine ⟨fun hpos => ?_, fun _ h => absurd h hfree⟩
        have htaken : s.txNumFreeMem = s.txNumFreeMem - 1 := (hrep.taken (Nat.pos_of_ne_zero hpos)).1
        omega
      · intro h
        have hzero : (virtualSegments cfg.pageSize p.chain).length = 0 := by
          by_contra hpos
          exact hfree ((h hlen).1 hpos)
        rw [hzero]
        exact ⟨fun h => absurd h (Nat.lt_irrefl 0), fun h => absurd h (Nat.lt_irrefl 0), fun _ => ⟨rfl, rfl⟩⟩
  · rw [txMapPacket, if_pos (Nat.lt_of_not_le hlen)]
    exact iff_of_true ⟨fun h => absurd h (Nat.lt_irrefl 0), fun h => absurd h (Nat.lt_irrefl 0),
      fun _ => ⟨rfl, rfl⟩⟩ fun h => absurd h hlen

/-- The link is up and 511 packets of one segment are in flight. -/
def mapExhausted : TxSide :=
  exec (txStep smallPages) TxSide.init (.link phyLinkStatus :: List.replicate 511 (.output shortPacket))

/-- **One more packet**: the ring has room for it, one slot is free, and the call returns 1 with the
segment array as it found it and no slot taken. -/
theorem mapExhausted_not_reported :
    (mapExhausted.txNumFreeMem = 1 ∧ (kMaxSegs : ℤ) + 3 < mapExhausted.hw.txNumFreeDesc) ∧
    txMapPacket smallPages shortPacket.pkt kMaxSegs shortPacket.result shortPacket.vector mapExhausted =
      (1, shortPacket.vector, mapExhausted) ∧
    ¬ Reported smallPages shortPacket.pkt shortPacket.result mapExhausted
      (txMapPacket smallPages shortPacket.pkt kMaxSegs shortPacket.result shortPacket.vector
        mapExhausted) := by
  have hstate : mapExhausted.txNumFreeMem = 1 ∧ (kMaxSegs : ℤ) + 3 < mapExhausted.hw.txNumFreeDesc := by
    decide +kernel
  have hsegs : (virtualSegments smallPages.pageSize shortPacket.pkt.chain).length = 1 := by decide +kernel
  have hcall := txMapPacket_of_no_slot (r := shortPacket.result) (s := mapExhausted)
    (hsegs.trans_le (by decide)) (by omega)
  rw [hsegs] at hcall
  refine ⟨hstate, hcall _, fun hrep => ?_⟩
  rw [hcall] at hrep
  have htaken : mapExhausted.txNumFreeMem = mapExhausted.txNumFreeMem - 1 := (hrep.taken Nat.one_pos).1
  omega

end Rtl812x.Kext
