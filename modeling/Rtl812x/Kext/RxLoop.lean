import Mathlib.Data.List.Nodup
import Rtl812x.Kext.Rx

/-!
# When `rxInterruptVTD` handles each completed descriptor once

The mapped receive loop never gives a descriptor back while it runs, and its count goes up only
when a frame is complete.  What stops it is a descriptor the chip still owns, or enough delivered
packets.  `RxFound` is the ring as a call finds it, together with which descriptors the chip has
completed since the driver last armed them (`fresh`): a descriptor handled earlier, in a batch not
yet mapped again, has `DescOwn` clear without being fresh.

* `freshRun` — how many fresh descriptors lie ahead;
* `rxInterruptVTD_once_iff` — the loop ends, looks at no index twice and only at fresh descriptors
  **exactly when** the fresh run ends at a descriptor the chip owns or holds `maxCount` packets;
* `full_ring_of_errors_never_ends` — 1024 errored buffers and `maxCount = kNumRxDesc`, as
  `interruptOccurredVTD` calls it: the loop runs for ever.
-/

namespace Rtl812x.Kext

open Circular Loop

/-- A receive ring as a call finds it.  The chip clears `DescOwn` when it completes a descriptor. -/
structure RxFound where
  side : RxSide
  fresh : ℕ → Bool
  index_lt : side.rxNextDescIndex < kNumRxDesc
  fresh_done : ∀ i, fresh i = true → (side.desc i).own = false

namespace RxFound

variable (r : RxFound)

/-- How many descriptors from the next one on are fresh. -/
def freshRun : ℕ := runLength (fun k => r.fresh (rxIndex r.side k)) kNumRxDesc

/-- The fresh run ends at a descriptor the chip owns, or holds enough packets. -/
def StopsInTime (maxCopySize maxCount : ℕ) (alloc : ℕ → Alloc) : Prop :=
  (rxAt r.side r.freshRun).own = true ∨
    maxCount ≤ goodAfter 0x1fff maxCopySize alloc r.side r.freshRun

theorem freshRun_le : r.freshRun ≤ kNumRxDesc := runLength_le _ _

theorem fresh_of_lt {k : ℕ} (hk : k < r.freshRun) : r.fresh (rxIndex r.side k) = true :=
  runLength_holds (p := fun k => r.fresh (rxIndex r.side k)) hk

/-- A run shorter than the ring ends at a descriptor that is not fresh. -/
theorem fresh_freshRun (h : r.freshRun < kNumRxDesc) : r.fresh (rxIndex r.side r.freshRun) = false :=
  runLength_ends (p := fun k => r.fresh (rxIndex r.side k)) h

theorem own_of_lt {k : ℕ} (hk : k < r.freshRun) : (rxAt r.side k).own = false :=
  r.fresh_done _ (r.fresh_of_lt hk)

end RxFound

/-! ### The rounds of the loop -/

section Rounds

variable {lenMask : UInt32} {maxCopySize : ℕ} {alloc : ℕ → Alloc} {s : RxSide}

theorem goodAfter_mono {j k : ℕ} (h : j ≤ k) :
    goodAfter lenMask maxCopySize alloc s j ≤ goodAfter lenMask maxCopySize alloc s k := by
  induction k with
  | zero => rw [Nat.le_zero.mp h]
  | succ k ih =>
      rcases Nat.lt_or_eq_of_le h with hlt | rfl
      · exact (ih (by omega)).trans (Nat.le_add_right _ _)
      · exact le_refl _

/-- What some fuel makes `rxInterruptVTD` return. -/
theorem exists_rxInterruptVTD_iff (cfg : RxConfig) (maps : ℕ → MapResult) (maxCount : ℕ)
    (P : RxCall → Prop) :
    (∃ fuel c, rxInterruptVTD cfg alloc maps maxCount fuel s = some c ∧ P c) ↔
      ∃ k, StopsAt (rxGoOn maxCount) (rxInterruptVTDStep cfg alloc) (.start s) k ∧
        P (rxRemap cfg maps ((rxInterruptVTDStep cfg alloc)^[k] (.start s))) := by
  constructor
  · rintro ⟨fuel, c, hrun, hP⟩
    obtain ⟨c', hloop, rfl⟩ := Option.map_eq_some_iff.mp hrun
    obtain ⟨k, _, hstop, rfl⟩ := whileFuel_eq_some_iff.mp hloop
    exact ⟨k, hstop, hP⟩
  · rintro ⟨k, hstop, hP⟩
    refine ⟨k, _, ?_, hP⟩
    rw [rxInterruptVTD, whileFuel_eq_some_iff.mpr ⟨k, le_refl k, hstop, rfl⟩, Option.map_some]

end Rounds

namespace RxFound

variable (r : RxFound) (cfg : RxConfig) (alloc : ℕ → Alloc) (maps : ℕ → MapResult) (maxCount : ℕ)

/-- What a call looked at, if it took `k` rounds. -/
theorem visited_after (k : ℕ) :
    (rxRemap cfg maps ((rxInterruptVTDStep cfg alloc)^[k] (.start r.side))).visited =
      (List.range k).map (rxIndex r.side) := by
  rw [(rxRemap_frame cfg maps _).2.2.2,
    (rxInterruptVTDStep_iterate cfg alloc r.index_lt k).1.visited]

/-- Indices are distinct and fresh exactly for a loop that stays within the fresh run. -/
theorem visited_once_iff (k : ℕ) :
    (((List.range k).map (rxIndex r.side)).Nodup ∧
      ∀ i ∈ (List.range k).map (rxIndex r.side), r.fresh i = true) ↔ k ≤ r.freshRun := by
  constructor
  · rintro ⟨hnodup, hfresh⟩
    by_contra hlt
    have hmem : ∀ j < k, r.fresh (rxIndex r.side j) = true := fun j hj =>
      hfresh _ (List.mem_map_of_mem (List.mem_range.mpr hj))
    rcases Nat.lt_or_eq_of_le r.freshRun_le with hn | hn
    · have hend := r.fresh_freshRun hn
      rw [hmem _ (by omega)] at hend
      exact absurd hend (by decide)
    · -- more than a lap: the first index comes again
      have hlap : rxIndex r.side kNumRxDesc = rxIndex r.side 0 := Nat.add_mod_right _ _
      have := List.inj_on_of_nodup_map hnodup (List.mem_range.mpr (by omega))
        (List.mem_range.mpr (by omega)) hlap
      exact absurd this (by decide)
  · intro hk
    have hle := r.freshRun_le
    refine ⟨List.Nodup.map_on ?_ List.nodup_range, ?_⟩
    · intro a ha b hb he
      exact rxIndex_inj (by have := List.mem_range.mp ha; omega)
        (by have := List.mem_range.mp hb; omega) he
    · intro i hi
      obtain ⟨j, hj, rfl⟩ := List.mem_map.mp hi
      exact r.fresh_of_lt (by have := List.mem_range.mp hj; omega)

/-- The loop stops within the fresh run exactly when the run stops it. -/
theorem stops_iff :
    (∃ k ≤ r.freshRun, StopsAt (rxGoOn maxCount) (rxInterruptVTDStep cfg alloc) (.start r.side) k) ↔
      r.StopsInTime cfg.maxCopySize maxCount alloc := by
  constructor
  · rintro ⟨k, hk, hstop⟩
    have htest := hstop.2
    rw [rxGoOn_vtd cfg alloc r.index_lt] at htest
    simp only [Bool.and_eq_false_iff, Bool.not_eq_false', decide_eq_false_iff_not, not_lt] at htest
    rcases htest with hown | hgood
    · rcases Nat.lt_or_eq_of_le hk with hlt | rfl
      · rw [r.own_of_lt hlt] at hown
        exact absurd hown (by decide)
      · exact Or.inl hown
    · exact Or.inr (hgood.trans (goodAfter_mono hk))
  · intro h
    apply exists_stopsAt
    rw [rxGoOn_vtd cfg alloc r.index_lt]
    rcases h with hown | hgood
    · rw [hown]
      rfl
    · rw [decide_eq_false (Nat.not_lt.mpr hgood), Bool.and_false]

end RxFound

/-- **The mapped receive loop** ends, looks at each ring index at most once and handles only
descriptors the chip has completed since they were armed, exactly when the run of such descriptors
ahead of it ends at a descriptor the chip owns or holds `maxCount` packets to deliver. -/
theorem rxInterruptVTD_once_iff (cfg : RxConfig) (alloc : ℕ → Alloc) (maps : ℕ → MapResult)
    (maxCount : ℕ) (r : RxFound) :
    (∃ fuel c, rxInterruptVTD cfg alloc maps maxCount fuel r.side = some c ∧
      c.visited.Nodup ∧ ∀ i ∈ c.visited, r.fresh i = true) ↔
    r.StopsInTime cfg.maxCopySize maxCount alloc := by
  rw [exists_rxInterruptVTD_iff cfg maps maxCount
    (fun c => c.visited.Nodup ∧ ∀ i ∈ c.visited, r.fresh i = true), ← r.stops_iff cfg alloc maxCount]
  constructor
  · rintro ⟨k, hstop, honce⟩
    rw [r.visited_after cfg alloc maps k] at honce
    exact ⟨k, (r.visited_once_iff k).mp honce, hstop⟩
  · rintro ⟨k, hk, hstop⟩
    refine ⟨k, hstop, ?_⟩
    rw [r.visited_after cfg alloc maps k]
    exact (r.visited_once_iff k).mpr hk

/-! ### A full ring of errored buffers -/

/-- Nothing allocated, nothing put together. -/
def emptyAssembly : RxAssembly where
  mbuf := fun _ => newMbuf
  nextMbuf := kNumRxDesc
  bufMbuf := id
  rxPacket := []
  rxPacketSize := 0
  stats := ⟨0, 0, 0⟩
  trace := []

/-- A receive side whose next descriptor is the first, with the given ring. -/
def sideWith (desc : ℕ → RxDesc) : RxSide where
  desc := desc
  bufPhyAddr := fun _ => 0
  rxNextDescIndex := 0
  rxMapNextIndex := 0
  rxMem := fun _ => ⟨1, true⟩
  rxMemRange := id
  seen := 0
  asm := emptyAssembly

/-- Pages of 4 KiB, with each mbuf at its own number. -/
def page4k : RxConfig := ⟨4096, 96, id⟩

/-- A buffer completed with a CRC error. -/
def crcErrorDesc : RxDesc := ⟨firstFrag ||| lastFrag ||| rxRES ||| rxCRC ||| 64, 0, 0⟩

theorem crcErrorDesc_own : crcErrorDesc.own = false := by decide

theorem rxDelivers_crcErrorDesc (lenMask : UInt32) (maxCopySize : ℕ) (a : Alloc) :
    rxDelivers lenMask maxCopySize crcErrorDesc a = false := by
  have hres : (crcErrorDesc.opts1 &&& rxRES == 0) = false := by decide
  rw [rxDelivers, rxTakes, hres]
  rfl

/-- Every descriptor completed with a CRC error. -/
def fullRingOfErrors : RxFound where
  side := sideWith fun _ => crcErrorDesc
  fresh := fun _ => true
  index_lt := by decide
  fresh_done := fun _ _ => crcErrorDesc_own

def page16k : RxConfig := ⟨16384, 96, id⟩

theorem goodAfter_fullRingOfErrors (maxCopySize : ℕ) (alloc : ℕ → Alloc) (k : ℕ) :
    goodAfter 0x1fff maxCopySize alloc fullRingOfErrors.side k = 0 := by
  induction k with
  | zero => rfl
  | succ k ih =>
      rw [goodAfter, ih]
      show 0 + (rxDelivers 0x1fff maxCopySize crcErrorDesc _).toNat = 0
      rw [rxDelivers_crcErrorDesc]
      rfl

theorem full_ring_of_errors_never_ends :
    ¬ ∃ fuel c, rxInterruptVTD page16k (fun _ => .single) (fun _ => .segs some) kNumRxDesc fuel
      fullRingOfErrors.side = some c ∧ c.visited.Nodup ∧
      ∀ i ∈ c.visited, fullRingOfErrors.fresh i = true := by
  rw [exists_rxInterruptVTD_iff page16k (fun _ => .segs some) kNumRxDesc
    (fun c => c.visited.Nodup ∧ ∀ i ∈ c.visited, fullRingOfErrors.fresh i = true)]
  rintro ⟨k, hstop, _⟩
  have htest := hstop.2
  rw [rxGoOn_vtd page16k _ fullRingOfErrors.index_lt, goodAfter_fullRingOfErrors,
    show (rxAt fullRingOfErrors.side k).own = false from crcErrorDesc_own] at htest
  exact absurd htest (by decide)

end Rtl812x.Kext
