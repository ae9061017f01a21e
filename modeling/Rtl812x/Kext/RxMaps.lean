import Rtl812x.Kext.Rx
import Rtl812x.Lib.Runs
import Rtl812x.Lib.Slots

/-!
# Mapping the receive buffers

With an IOMMU the chip writes to device addresses.  Sixteen receive buffers at a time share a memory
descriptor and a DMA command; `rxMapBuffers` takes the mapping of such a batch down and maps its buffers
anew, and any of four calls may fail on the way.  What the DMA commands map at the moment is kept beside
the driver's state (`RxMaps.mapped`, a record only), and so is whether `complete` was ever called on a
descriptor that was not prepared.

* `MapResult.armed` — how many descriptors of a batch are armed before a call fails;
* `rxMapBatch_spec` — **what mapping a batch does** to the ring, the buffers and the memory descriptor;
* `RxMaps`, `mapStep` — the steps: the chip gives a descriptor back, a round of `rxInterruptVTD`, a
  batch of `rxMapBuffers`, `clearRxTxRings`;
* `rxInterruptVTD_exec` — **a call of `rxInterruptVTD` is a run** of rounds and batches.
-/

namespace Rtl812x.Kext

open Loop Runs Slots

/-! ### A batch -/

/-- The device address of a buffer of the batch, if the DMA command maps it and tells. -/
def MapResult.addr? : MapResult → ℕ → Option ℕ
  | .segs pa, k => pa k
  | .initFails, _ | .prepareFails, _ | .setFails, _ => none

def MapResult.addr (r : MapResult) (k : ℕ) : ℕ := (r.addr? k).getD 0

/-- The descriptors armed before a call fails; a whole batch if none does. -/
def MapResult.armed (r : MapResult) : ℕ := runLength (fun k => (r.addr? k).isSome) kRxMemBatchSize

/-- Whether `initWithOptions` and `prepare` succeed. -/
def MapResult.prepares : MapResult → Bool
  | .segs _ | .setFails => true
  | .initFails | .prepareFails => false

/-- Whether `setMemoryDescriptor` succeeds too. -/
def MapResult.binds : MapResult → Bool
  | .segs _ => true
  | .initFails | .prepareFails | .setFails => false

namespace MapResult

variable {r : MapResult} {k : ℕ}

theorem armed_eq_zero (h : r.binds = false) : r.armed = 0 := by
  cases r with
  | segs pa => cases h
  | _ => rfl

theorem addr?_of_lt (hk : k < r.armed) : r.addr? k = some (r.addr k) := by
  have hsome : (r.addr? k).isSome = true := runLength_holds hk
  obtain ⟨a, ha⟩ := Option.isSome_iff_exists.mp hsome
  rw [addr, ha, Option.getD_some]

theorem addr?_armed (h : r.armed < kRxMemBatchSize) : r.addr? r.armed = none := by
  have hnone : (r.addr? r.armed).isSome = false := runLength_ends h
  simpa using hnone

theorem armed_le (r : MapResult) : r.armed ≤ kRxMemBatchSize := runLength_le _ _

/-- Outside its batch nothing is armed. -/
theorem not_armed {index i : ℕ} (hout : ¬ (index ≤ i ∧ i < index + kRxMemBatchSize)) :
    ¬ (index ≤ i ∧ i < index + r.armed) := by
  intro h
  exact hout ⟨h.1, lt_of_lt_of_le h.2 (Nat.add_le_add_left r.armed_le _)⟩

theorem binds_of_addr? {a : ℕ} (h : r.addr? k = some a) : r.binds = true := by
  cases r with
  | segs pa => rfl
  | _ => cases h

end MapResult

/-- The first `m` of a stretch of descriptors get an address. -/
def armStretch (pageSize index m : ℕ) (addr : ℕ → ℕ) (s : RxSide) : RxSide :=
  { s with
    bufPhyAddr := fun i => if index ≤ i ∧ i < index + m then addr (i - index) else s.bufPhyAddr i
    desc := fun i => if index ≤ i ∧ i < index + m then armedDesc pageSize i (addr (i - index))
      else s.desc i }

theorem armStretch_zero (pageSize index : ℕ) (addr : ℕ → ℕ) (s : RxSide) :
    armStretch pageSize index 0 addr s = s := by
  have hnone : ∀ i, ¬ (index ≤ i ∧ i < index + 0) := fun i => by omega
  simp only [armStretch, hnone, if_false]

/-- The stretch goes on behind a descriptor that has got its address. -/
theorem armStretch_succ (pageSize index m : ℕ) (addr : ℕ → ℕ) (s : RxSide) :
    armStretch pageSize (index + 1) m (fun k => addr (k + 1)) { s with
      bufPhyAddr := Function.update s.bufPhyAddr index (addr 0)
      desc := Function.update s.desc index (armedDesc pageSize index (addr 0)) } =
    armStretch pageSize index (m + 1) addr s := by
  have hshift : ∀ i, index + 1 ≤ i → i - (index + 1) + 1 = i - index := fun i hi => by omega
  simp only [armStretch]
  rw [update_before (g := fun i => addr (i - index)) index m (by rw [Nat.sub_self])
      (fun i hi => by rw [hshift i hi]),
    update_before (g := fun i => armedDesc pageSize i (addr (i - index))) index m (by rw [Nat.sub_self])
      (fun i hi => by rw [hshift i hi])]

theorem rxArmSegs_spec (pageSize index n : ℕ) (pa : ℕ → Option ℕ) (s : RxSide) :
    rxArmSegs pageSize ((List.range n).map fun k => (index + k, pa k)) s =
      (decide (runLength (fun k => (pa k).isSome) n = n),
        armStretch pageSize index (runLength (fun k => (pa k).isSome) n) (fun k => (pa k).getD 0) s) := by
  induction n generalizing index pa s with
  | zero => rw [runLength, armStretch_zero]; rfl
  | succ n ih =>
      rw [List.range_succ_eq_map, List.map_cons, List.map_map, runLength]
      cases hpa : pa 0 with
      | none =>
          rw [if_neg (by simp), armStretch_zero]
          rfl
      | some a =>
          have hshift : ((fun k => (index + k, pa k)) ∘ Nat.succ) =
              fun k => (index + 1 + k, pa (k + 1)) := by
            funext k
            show (index + (k + 1), pa (k + 1)) = _
            rw [Nat.add_right_comm, Nat.add_assoc]
          have hstretch := armStretch_succ pageSize index (runLength (fun k => (pa (k + 1)).isSome) n)
            (fun k => (pa k).getD 0) s
          rw [hpa, Option.getD_some] at hstretch
          rw [hshift, Nat.add_zero, rxArmSegs, ih (index + 1) (fun k => pa (k + 1)), hstretch,
            if_pos (by rfl)]
          simp only [Nat.add_right_cancel_iff]

/-- The memory descriptor of a batch after `complete` and the calls that map it anew. -/
def RxMem.remapped (r : MapResult) (m : RxMem) : RxMem :=
  ⟨m.prepared - 1 + if r.prepares then 1 else 0, r.binds⟩

/-- The mapping of the batch at `index` is taken down, and up to `armed` descriptors of it get a new
one. -/
theorem rxMapBatch_spec (pageSize index : ℕ) (r : MapResult) (s : RxSide) :
    rxMapBatch pageSize index r s = (decide (r.armed = kRxMemBatchSize),
      armStretch pageSize index r.armed r.addr { rxUnmapBatch index s with
        rxMem := Function.update s.rxMem (index >>> kRxMemBaseShift)
          ((s.rxMem (index >>> kRxMemBaseShift)).remapped r) }) := by
  cases r with
  | segs pa =>
      simp only [rxMapBatch, rxArmSegs_spec, rxUnmapBatch, Function.update_self, Function.update_idem]
      rfl
  | setFails =>
      rw [MapResult.armed_eq_zero (by rfl), armStretch_zero]
      simp only [rxMapBatch, rxUnmapBatch, Function.update_self, Function.update_idem]
      rfl
  | _ =>
      rw [MapResult.armed_eq_zero (by rfl), armStretch_zero]
      simp only [rxMapBatch, rxUnmapBatch, RxMem.remapped, MapResult.prepares, Bool.false_eq_true,
        if_false, Int.add_zero]
      rfl

/-! ### Batches of the ring -/

theorem shift_eq_iff (i q : ℕ) : i >>> kRxMemBaseShift = q ↔
    kRxMemBatchSize * q ≤ i ∧ i < kRxMemBatchSize * q + kRxMemBatchSize := by
  have hsize : kRxMemBatchSize = 16 := by decide
  have hdiv : i >>> kRxMemBaseShift = i / 16 := Nat.shiftRight_eq_div_pow i 4
  rw [hsize, hdiv]
  omega

theorem batch_shift (q : ℕ) : (kRxMemBatchSize * q) >>> kRxMemBaseShift = q :=
  (shift_eq_iff _ q).mpr ⟨le_refl _, Nat.lt_add_of_pos_right (by decide)⟩

theorem batch_lt {i q : ℕ} (hq : q < kNumRxMemDesc) (hi : i < kRxMemBatchSize * q + kRxMemBatchSize) :
    i < kNumRxDesc := by
  have hsize : kRxMemBatchSize = 16 := by decide
  have hnum : kNumRxMemDesc = 64 := by decide
  rw [hsize] at hi
  rw [hnum] at hq
  show i < 1024
  omega

theorem next_batch (q : ℕ) :
    (kRxMemBatchSize * q + kRxMemBatchSize) &&& kRxDescMask =
      kRxMemBatchSize * ((q + 1) % kNumRxMemDesc) := by
  have hsize : kRxMemBatchSize = 16 := by decide
  have hnum : kNumRxMemDesc = 64 := by decide
  rw [and_kRxDescMask, hsize, hnum]
  show (16 * q + 16) % 1024 = 16 * ((q + 1) % 64)
  omega

/-! ### What is mapped -/

/-- The receive side, what is mapped at the moment, and whether `complete` was called on a descriptor
without an outstanding `prepare`. -/
structure RxMaps where
  side : RxSide
  mapped : ℕ → Option (ℕ × ℕ)
  faulty : Bool

/-- The mapping of a batch is taken down. -/
def RxMaps.unmapBatch (index : ℕ) (s : RxMaps) : RxMaps where
  side := rxUnmapBatch index s.side
  mapped := fun i => if index ≤ i ∧ i < index + kRxMemBatchSize then none else s.mapped i
  faulty := s.faulty || decide ((s.side.rxMem (index >>> kRxMemBaseShift)).prepared ≤ 0)

/-- One batch of `rxMapBuffers`. -/
def RxMaps.mapBatch (pageSize index : ℕ) (r : MapResult) (s : RxMaps) : Bool × RxMaps :=
  let m := rxMapBatch pageSize index r s.side
  (m.1, {
    side := m.2
    mapped := fun i => if index ≤ i ∧ i < index + kRxMemBatchSize then
      (r.addr? (i - index)).map fun a => (m.2.rxMemRange i, a) else s.mapped i
    faulty := s.faulty || decide ((s.side.rxMem (index >>> kRxMemBaseShift)).prepared ≤ 0) })

section Batch

variable {pageSize index : ℕ} {r : MapResult} {s : RxMaps}

theorem mapBatch_fst : (s.mapBatch pageSize index r).1 = decide (r.armed = kRxMemBatchSize) :=
  congrArg Prod.fst (rxMapBatch_spec pageSize index r s.side)

theorem mapBatch_side : (s.mapBatch pageSize index r).2.side =
    armStretch pageSize index r.armed r.addr { rxUnmapBatch index s.side with
      rxMem := Function.update s.side.rxMem (index >>> kRxMemBaseShift)
        ((s.side.rxMem (index >>> kRxMemBaseShift)).remapped r) } :=
  congrArg Prod.snd (rxMapBatch_spec pageSize index r s.side)

/-- A descriptor gets a new address if the batch gets that far. -/
theorem mapBatch_desc (i : ℕ) : (s.mapBatch pageSize index r).2.side.desc i =
    if index ≤ i ∧ i < index + r.armed then armedDesc pageSize i (r.addr (i - index))
    else s.side.desc i := by
  rw [mapBatch_side]
  rfl

theorem mapBatch_bufPhyAddr (i : ℕ) : (s.mapBatch pageSize index r).2.side.bufPhyAddr i =
    if index ≤ i ∧ i < index + r.armed then r.addr (i - index) else s.side.bufPhyAddr i := by
  rw [mapBatch_side]
  rfl

theorem mapBatch_rxMem : (s.mapBatch pageSize index r).2.side.rxMem =
    Function.update s.side.rxMem (index >>> kRxMemBaseShift)
      ((s.side.rxMem (index >>> kRxMemBaseShift)).remapped r) := by
  rw [mapBatch_side]
  rfl

theorem mapBatch_asm : (s.mapBatch pageSize index r).2.side.asm = s.side.asm :=
  (rxMapBatch_frame pageSize index r s.side).1

/-- Where `initWithOptions` fails, the batch is left as it was taken down. -/
theorem mapBatch_initFails (pageSize index : ℕ) (s : RxMaps) :
    (s.mapBatch pageSize index .initFails).2 = s.unmapBatch index := rfl

end Batch

def RxMaps.setNextIndex (index : ℕ) (s : RxMaps) : RxMaps :=
  { s with side := { s.side with rxMapNextIndex := index } }

/-- `rxMapBuffers`, with the record. -/
def RxMaps.mapBuffers (pageSize : ℕ) (maps : ℕ → MapResult) (index : ℕ) : ℕ → RxMaps → RxMaps
  | 0, s => s
  | count + 1, s =>
      let m := s.mapBatch pageSize index (maps 0)
      if m.1 then
        let index := (index + kRxMemBatchSize) &&& kRxDescMask
        RxMaps.mapBuffers pageSize (fun n => maps (n + 1)) index count (m.2.setNextIndex index)
      else m.2

theorem mapBuffers_side (pageSize : ℕ) (maps : ℕ → MapResult) (index count : ℕ) (s : RxMaps) :
    (s.mapBuffers pageSize maps index count).side = (rxMapBuffers pageSize maps index count s.side).2 := by
  induction count generalizing maps index s with
  | zero => rfl
  | succ count ih =>
      rw [RxMaps.mapBuffers, rxMapBuffers]
      by_cases hok : (rxMapBatch pageSize index (maps 0) s.side).1 = true
      · rw [if_pos hok]
        exact (congrArg RxMaps.side (if_pos hok)).trans (ih _ _ _)
      · rw [if_neg hok]
        exact congrArg RxMaps.side (if_neg hok)

/-- What `clearRxTxRings` does to the receive side once the buffers are mapped: every descriptor is
armed. -/
def rxArmAll (pageSize : ℕ) (s : RxSide) : RxSide :=
  { s with
    desc := fun i => if i < kNumRxDesc then armedDesc pageSize i (s.bufPhyAddr i) else s.desc i
    rxNextDescIndex := 0
    rxMapNextIndex := 0
    asm := discardPacketFragment s.asm }

def RxMaps.armAll (pageSize : ℕ) (s : RxMaps) : RxMaps := { s with side := rxArmAll pageSize s.side }

/-- The receive half of `clearRxTxRings`. -/
def rxClearRings (pageSize : ℕ) (maps : ℕ → MapResult) (s : RxSide) : RxSide :=
  rxArmAll pageSize (rxMapBuffers pageSize maps 0 kNumRxMemDesc s).2

/-- What `setupRxMap` leaves if all its calls succeed: every buffer is mapped at `pa` and its descriptor
armed. -/
def setupRxMap (pageSize : ℕ) (pa : ℕ → ℕ) (asm : RxAssembly) : RxMaps where
  side := {
    desc := fun i => armedDesc pageSize i (pa i)
    bufPhyAddr := pa
    rxNextDescIndex := 0
    rxMapNextIndex := 0
    rxMem := fun _ => ⟨1, true⟩
    rxMemRange := asm.bufMbuf
    seen := 0
    asm := asm }
  mapped := fun i => some (asm.bufMbuf i, pa i)
  faulty := false

/-! ### Steps -/

inductive MapOp where
  /-- the chip is done with descriptor `i` -/
  | chip (i : ℕ) (d : RxDesc)
  /-- a round of `rxInterruptVTD` -/
  | round (a : Alloc)
  /-- a batch that `rxInterruptVTD` has mapped anew -/
  | remap (r : MapResult)
  | clear (maps : ℕ → MapResult)

def mapStep (cfg : RxConfig) (s : RxMaps) : MapOp → RxMaps
  | .chip i d => { s with side := { s.side with desc := Function.update s.side.desc i d } }
  | .round a => { s with side := (rxInterruptVTDStep cfg (fun _ => a) (.start s.side)).side }
  | .remap r =>
      let index := s.side.rxMapNextIndex
      let m := s.mapBatch cfg.pageSize index r
      if m.1 then m.2.setNextIndex ((index + kRxMemBatchSize) &&& kRxDescMask) else m.2
  | .clear maps => (s.mapBuffers cfg.pageSize maps 0 kNumRxMemDesc).armAll cfg.pageSize

/-- The states a step goes through while the chip is running.  The chip is stopped before
`clearRxTxRings`, and a descriptor that `rxMapBuffers` arms is mapped by then. -/
def mapStates (cfg : RxConfig) (s : RxMaps) : MapOp → List RxMaps
  | .remap r => [s.unmapBatch s.side.rxMapNextIndex, mapStep cfg s (.remap r)]
  | op => [mapStep cfg s op]

theorem mapStep_clear_side (cfg : RxConfig) (maps : ℕ → MapResult) (s : RxMaps) :
    (mapStep cfg s (.clear maps)).side = rxClearRings cfg.pageSize maps s.side := by
  simp only [mapStep, RxMaps.armAll, rxClearRings, mapBuffers_side]

/-- A device address is never 0. -/
def MapResult.NonZero (r : MapResult) : Prop := ∀ k < kRxMemBatchSize, r.addr? k ≠ some 0

instance (r : MapResult) : Decidable r.NonZero := inferInstanceAs (Decidable (∀ _ < _, _))

/-- What the chip and the mapper promise, and the test at the head of the loop. -/
def MapLegal (s : RxMaps) : MapOp → Prop
  | .chip i d => (s.side.desc i).own = true ∧ d.own = false
  | .round _ => (s.side.desc s.side.rxNextDescIndex).own = false
  | .remap r => r.NonZero
  | .clear maps => ∀ b < kNumRxMemDesc, (maps b).NonZero

instance (s : RxMaps) : ∀ op, Decidable (MapLegal s op)
  | .chip _ _ => inferInstanceAs (Decidable (_ ∧ _))
  | .round _ => inferInstanceAs (Decidable (_ = _))
  | .remap r => inferInstanceAs (Decidable r.NonZero)
  | .clear _ => inferInstanceAs (Decidable (∀ _ < _, _))

/-! ### A call of `rxInterruptVTD` -/

section Calls

variable {cfg : RxConfig} {maps : ℕ → MapResult}

/-- The batches of a call of `rxMapBuffers` that starts where the last one stopped. -/
theorem mapBuffers_exec (cfg : RxConfig) (hmaps : ∀ n, (maps n).NonZero) (count : ℕ) (s : RxMaps) :
    ∃ ops, Along (mapStep cfg) MapLegal s ops ∧ exec (mapStep cfg) s ops =
      s.mapBuffers cfg.pageSize maps s.side.rxMapNextIndex count := by
  induction count generalizing maps s with
  | zero => exact ⟨[], trivial, rfl⟩
  | succ count ih =>
      rw [RxMaps.mapBuffers]
      by_cases hok : (s.mapBatch cfg.pageSize s.side.rxMapNextIndex (maps 0)).1 = true
      · have hnext : mapStep cfg s (.remap (maps 0)) =
            (s.mapBatch cfg.pageSize s.side.rxMapNextIndex (maps 0)).2.setNextIndex
              ((s.side.rxMapNextIndex + kRxMemBatchSize) &&& kRxDescMask) := if_pos hok
        obtain ⟨ops, hlegal, hexec⟩ := ih (fun n => hmaps (n + 1)) (mapStep cfg s (.remap (maps 0)))
        refine ⟨.remap (maps 0) :: ops, ⟨hmaps 0, hlegal⟩, ?_⟩
        rw [if_pos hok, exec, hexec, hnext]
        rfl
      · refine ⟨[.remap (maps 0)], ⟨hmaps 0, trivial⟩, ?_⟩
        rw [if_neg hok]
        exact if_neg hok

/-- The rounds of a call: each finds its descriptor given back. -/
theorem rounds_exec (alloc : ℕ → Alloc) {maxCount k : ℕ} {s : RxMaps} {c : RxCall}
    (hc : c.side = s.side)
    (hgo : ∀ j < k, rxGoOn maxCount ((rxInterruptVTDStep cfg alloc)^[j] c) = true) :
    ∃ ops, Along (mapStep cfg) MapLegal s ops ∧
      (exec (mapStep cfg) s ops).side = ((rxInterruptVTDStep cfg alloc)^[k] c).side := by
  induction k generalizing s c with
  | zero => exact ⟨[], trivial, hc.symm⟩
  | succ k ih =>
      have hown : (c.side.desc c.side.rxNextDescIndex).own = false := by
        have h0 := hgo 0 (Nat.succ_pos k)
        simp only [Function.iterate_zero, id, rxGoOn, Bool.and_eq_true, Bool.not_eq_true'] at h0
        exact h0.1
      have hround : (rxInterruptVTDStep cfg alloc c).side =
          (mapStep cfg s (.round (alloc c.side.seen))).side := by
        simp only [mapStep, ← hc]
        rfl
      obtain ⟨ops, hlegal, hexec⟩ := ih hround fun j hj => hgo (j + 1) (Nat.succ_lt_succ hj)
      refine ⟨.round (alloc c.side.seen) :: ops, ⟨?_, hlegal⟩, hexec⟩
      rw [hc] at hown
      exact hown

/-- **A call of `rxInterruptVTD` that returns is a run** of rounds and batches. -/
theorem rxInterruptVTD_exec {alloc : ℕ → Alloc} {maxCount fuel : ℕ} {s : RxMaps} {c : RxCall}
    (hmaps : ∀ n, (maps n).NonZero)
    (h : rxInterruptVTD cfg alloc maps maxCount fuel s.side = some c) :
    ∃ ops, Along (mapStep cfg) MapLegal s ops ∧ (exec (mapStep cfg) s ops).side = c.side := by
  obtain ⟨d, hd, hc⟩ := Option.map_eq_some_iff.mp h
  obtain ⟨k, _, hstop, rfl⟩ := whileFuel_eq_some_iff.mp hd
  obtain ⟨rounds, hrounds, hside⟩ := rounds_exec (s := s) alloc rfl hstop.1
  rw [← hc, rxRemap]
  split
  · exact ⟨rounds, hrounds, hside⟩
  · obtain ⟨batches, hbatches, hexec⟩ := mapBuffers_exec cfg hmaps
      (((rxInterruptVTDStep cfg alloc)^[k] (.start s.side)).numMap % 2 ^ 16) (exec (mapStep cfg) s rounds)
    refine ⟨rounds ++ batches, (along_append _ _ _ _ _).mpr ⟨hrounds, hbatches⟩, ?_⟩
    rw [exec_append, hexec, mapBuffers_side, hside]

end Calls

end Rtl812x.Kext
