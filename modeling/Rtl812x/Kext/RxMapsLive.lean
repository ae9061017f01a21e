import Rtl812x.Kext.RxLoop
import Rtl812x.Kext.RxMaps

/-!
# The chip writes to live mappings

A receive descriptor that belongs to the chip must hold the address at which the mbuf of its buffer is
mapped, or the chip writes into memory the driver no longer owns.  A batch that fails half way is left
without a mapping, and both ways on from there are open to the driver: the batch is mapped again, where
`complete` meets a descriptor that was never prepared, or `clearRxTxRings` arms its descriptors with the
addresses of the mapping that is gone.

* `RxMaps.Live` — descriptors of the chip are mapped, and `prepare` and `complete` are in balance;
* `MapsInv` — the invariant; one rule for each step (`MapsInv.chip`, `MapsInv.round`, `MapsInv.remap`,
  `MapsInv.clear`);
* `rxMaps_live_iff` — **the mappings stay live exactly if** no batch is taken down that is not prepared or
  has descriptors with the chip, and none fails in `clearRxTxRings`;
* `clear_arms_unmapped` — a `clearRxTxRings` in which the first batch fails.
-/

namespace Rtl812x.Kext

open Loop Runs

/-- Descriptor `i` may be written to at `addr`: a bound DMA command maps the mbuf of its buffer there. -/
structure RxMaps.MappedAt (s : RxMaps) (i addr : ℕ) : Prop where
  addr_ne : addr ≠ 0
  mapped : s.mapped i = some (s.side.asm.bufMbuf i, addr)
  bound : (s.side.rxMem (i >>> kRxMemBaseShift)).bound = true

/-- A step that leaves the mapping of the buffer, its mbuf and its memory descriptor alone. -/
theorem RxMaps.MappedAt.congr {s t : RxMaps} {i addr : ℕ} (h : s.MappedAt i addr)
    (hmapped : t.mapped i = s.mapped i) (hbuf : t.side.asm.bufMbuf i = s.side.asm.bufMbuf i)
    (hmem : t.side.rxMem (i >>> kRxMemBaseShift) = s.side.rxMem (i >>> kRxMemBaseShift)) :
    t.MappedAt i addr where
  addr_ne := h.addr_ne
  mapped := by
    rw [hmapped, hbuf]
    exact h.mapped
  bound := by
    rw [hmem]
    exact h.bound

/-- **The mappings are live** wherever the chip may write, each memory descriptor is prepared at most
once, and none was completed that was not prepared. -/
structure RxMaps.Live (s : RxMaps) : Prop where
  mappedAt : ∀ i < kNumRxDesc, (s.side.desc i).own = true → s.MappedAt i (s.side.desc i).addr
  prepared : ∀ b < kNumRxMemDesc, (s.side.rxMem b).prepared = 0 ∨ (s.side.rxMem b).prepared = 1
  balanced : s.faulty = false

/-- A batch that can be taken down: it is prepared, and no descriptor of it belongs to the chip. -/
def BatchIdle (s : RxMaps) (index : ℕ) : Prop :=
  (s.side.rxMem (index >>> kRxMemBaseShift)).prepared = 1 ∧
  ∀ k < kRxMemBatchSize, (s.side.desc (index + k)).own = false

/-- The condition on a step: a batch is taken down only if it can be, and in `clearRxTxRings`, with the
chip stopped, every batch is prepared and none fails. -/
def MapKept (s : RxMaps) : MapOp → Prop
  | .chip _ _ | .round _ => True
  | .remap _ => BatchIdle s s.side.rxMapNextIndex
  | .clear maps => ∀ b < kNumRxMemDesc,
      (s.side.rxMem b).prepared = 1 ∧ (maps b).armed = kRxMemBatchSize

instance (s : RxMaps) : ∀ op, Decidable (MapKept s op)
  | .chip _ _ | .round _ => isTrue trivial
  | .remap _ => inferInstanceAs (Decidable (_ ∧ ∀ _ < _, _))
  | .clear _ => inferInstanceAs (Decidable (∀ _ < _, _))

/-- What every step keeps.  The address ranges follow the buffers, those apart that wait for a new
mapping, and batches are mapped from the head of one on. -/
structure MapsInv (s : RxMaps) : Prop extends s.Live where
  range : ∀ i < kNumRxDesc, s.side.bufPhyAddr i ≠ 0 → s.side.rxMemRange i = s.side.asm.bufMbuf i
  next : ∃ q < kNumRxMemDesc, s.side.rxMapNextIndex = kRxMemBatchSize * q

/-! ### One batch -/

/-- The batch is prepared, and all its descriptors get a new address or stay with the driver. -/
def BatchKept (s : RxMaps) (index : ℕ) (r : MapResult) : Prop :=
  (s.side.rxMem (index >>> kRxMemBaseShift)).prepared = 1 ∧
  ∀ k < kRxMemBatchSize, r.armed ≤ k → (s.side.desc (index + k)).own = false

section Batch

variable {pageSize index q i : ℕ} {r : MapResult} {s : RxMaps}

theorem BatchIdle.kept (h : BatchIdle s index) (r : MapResult) : BatchKept s index r :=
  ⟨h.1, fun k hk _ => h.2 k hk⟩

/-- The ranges of a batch follow its buffers. -/
theorem mapBatch_range (hs : MapsInv s) (hi : i < kNumRxDesc)
    (hin : index ≤ i ∧ i < index + kRxMemBatchSize) :
    (s.mapBatch pageSize index r).2.side.rxMemRange i = s.side.asm.bufMbuf i := by
  rw [mapBatch_side]
  show (if index ≤ i ∧ i < index + kRxMemBatchSize ∧ s.side.bufPhyAddr i = 0 then s.side.asm.bufMbuf i
    else s.side.rxMemRange i) = _
  split
  · rfl
  case isFalse h => exact hs.range i hi fun h0 => h ⟨hin.1, hin.2, h0⟩

theorem mapBatch_range_outside (hout : ¬ (index ≤ i ∧ i < index + kRxMemBatchSize)) :
    (s.mapBatch pageSize index r).2.side.rxMemRange i = s.side.rxMemRange i := by
  rw [mapBatch_side]
  exact if_neg fun h => hout ⟨h.1, h.2.1⟩

/-- **A buffer of the batch is mapped** at the address its DMA command tells. -/
theorem mapBatch_mapped (hs : MapsInv s) (hi : i < kNumRxDesc)
    (hin : index ≤ i ∧ i < index + kRxMemBatchSize) :
    (s.mapBatch pageSize index r).2.mapped i =
      (r.addr? (i - index)).map fun a => (s.side.asm.bufMbuf i, a) := by
  rw [← mapBatch_range (r := r) hs hi hin]
  exact if_pos hin

/-- The memory descriptor is prepared again, unless a call before that fails. -/
theorem remapped_prepared {m : RxMem} (r : MapResult) (hm : m.prepared = 1) :
    (m.remapped r).prepared = 0 ∨ (m.remapped r).prepared = 1 := by
  simp only [RxMem.remapped, hm]
  cases r.prepares with
  | true => exact .inr rfl
  | false => exact .inl rfl

/-- A descriptor of the batch that the chip has afterwards holds the address its command tells. -/
theorem mapBatch_addr? (hkept : BatchKept s index r) (hin : index ≤ i ∧ i < index + kRxMemBatchSize)
    (hown : ((s.mapBatch pageSize index r).2.side.desc i).own = true) :
    r.addr? (i - index) = some ((s.mapBatch pageSize index r).2.side.desc i).addr := by
  have hi : index + (i - index) = i := by omega
  rw [mapBatch_desc] at hown ⊢
  by_cases harmed : i < index + r.armed
  · rw [if_pos ⟨hin.1, harmed⟩]
    exact MapResult.addr?_of_lt (by omega)
  · rw [if_neg fun h => harmed h.2] at hown ⊢
    have hrest := hkept.2 (i - index) (by omega) (by omega)
    rw [hi] at hrest
    exact absurd hown (Bool.eq_false_iff.mp hrest)

theorem mapBatch_mappedAt (hs : MapsInv s) (hr : r.NonZero) (hkept : BatchKept s (kRxMemBatchSize * q) r)
    (hi : i < kNumRxDesc)
    (hown : ((s.mapBatch pageSize (kRxMemBatchSize * q) r).2.side.desc i).own = true) :
    (s.mapBatch pageSize (kRxMemBatchSize * q) r).2.MappedAt i
      ((s.mapBatch pageSize (kRxMemBatchSize * q) r).2.side.desc i).addr := by
  by_cases hin : kRxMemBatchSize * q ≤ i ∧ i < kRxMemBatchSize * q + kRxMemBatchSize
  · have haddr := mapBatch_addr? hkept hin hown
    refine ⟨fun h0 => ?_, ?_, ?_⟩
    · rw [h0] at haddr
      exact hr _ (by omega) haddr
    · rw [mapBatch_mapped hs hi hin, haddr, mapBatch_asm]
      rfl
    · rw [mapBatch_rxMem, batch_shift, (shift_eq_iff i q).mpr hin, Function.update_self]
      exact MapResult.binds_of_addr? haddr
  · have hdesc : (s.mapBatch pageSize (kRxMemBatchSize * q) r).2.side.desc i = s.side.desc i := by
      rw [mapBatch_desc, if_neg (MapResult.not_armed hin)]
    have hshift : i >>> kRxMemBaseShift ≠ q := fun h => hin ((shift_eq_iff i q).mp h)
    rw [hdesc] at hown ⊢
    refine (hs.mappedAt i hi hown).congr (if_neg hin) (by rw [mapBatch_asm]) ?_
    rw [mapBatch_rxMem, batch_shift, Function.update_of_ne hshift]

/-- **A batch that is kept** keeps the invariant. -/
theorem MapsInv.batch (hs : MapsInv s) (hr : r.NonZero) (hkept : BatchKept s (kRxMemBatchSize * q) r) :
    MapsInv (s.mapBatch pageSize (kRxMemBatchSize * q) r).2 where
  mappedAt := fun i hi hown => mapBatch_mappedAt hs hr hkept hi hown
  prepared := by
    intro b hb
    have hprep := hkept.1
    rw [batch_shift] at hprep
    rw [mapBatch_rxMem, batch_shift]
    by_cases hbq : b = q
    · rw [hbq, Function.update_self]
      exact remapped_prepared r hprep
    · rw [Function.update_of_ne hbq]
      exact hs.prepared b hb
  balanced := by
    show (s.faulty || decide ((s.side.rxMem ((kRxMemBatchSize * q) >>> kRxMemBaseShift)).prepared ≤ 0)) = _
    rw [hs.balanced, hkept.1]
    rfl
  range := by
    intro i hi hne
    rw [mapBatch_asm]
    by_cases hin : kRxMemBatchSize * q ≤ i ∧ i < kRxMemBatchSize * q + kRxMemBatchSize
    · exact mapBatch_range hs hi hin
    · rw [mapBatch_bufPhyAddr, if_neg (MapResult.not_armed hin)] at hne
      rw [mapBatch_range_outside hin]
      exact hs.range i hi hne
  next := by
    rw [mapBatch_side]
    exact hs.next

/-- The next index is of no account for the mappings. -/
theorem RxMaps.Live.setNextIndex (h : s.Live) (n : ℕ) : (s.setNextIndex n).Live :=
  ⟨fun i hi hown => (h.mappedAt i hi hown).congr rfl rfl rfl, h.prepared, h.balanced⟩

theorem MapsInv.setNextIndex (hs : MapsInv s) (q : ℕ) :
    MapsInv (s.setNextIndex ((kRxMemBatchSize * q + kRxMemBatchSize) &&& kRxDescMask)) where
  toLive := hs.toLive.setNextIndex _
  range := hs.range
  next := ⟨(q + 1) % kNumRxMemDesc, Nat.mod_lt _ (by decide), next_batch q⟩

/-- **If the mappings are live once a batch is taken down**, it could be. -/
theorem batchIdle_of_live (hs : MapsInv s) (hq : q < kNumRxMemDesc)
    (hlive : (s.unmapBatch (kRxMemBatchSize * q)).Live) : BatchIdle s (kRxMemBatchSize * q) := by
  constructor
  · have hbal : (s.faulty ||
        decide ((s.side.rxMem ((kRxMemBatchSize * q) >>> kRxMemBaseShift)).prepared ≤ 0)) = false :=
      hlive.balanced
    rw [batch_shift] at hbal ⊢
    rcases hs.prepared q hq with h0 | h1
    · rw [h0] at hbal
      simp at hbal
    · exact h1
  · intro k hk
    by_contra hown
    have hin : kRxMemBatchSize * q ≤ kRxMemBatchSize * q + k ∧
        kRxMemBatchSize * q + k < kRxMemBatchSize * q + kRxMemBatchSize := by omega
    have hmapped := (hlive.mappedAt _ (batch_lt hq hin.2) (Bool.eq_true_of_not_eq_false hown)).mapped
    rw [show (s.unmapBatch (kRxMemBatchSize * q)).mapped _ = none from if_pos hin] at hmapped
    cases hmapped

end Batch

/-! ### Rounds, and the chip -/

section Rounds

variable {cfg : RxConfig} {s : RxMaps}

theorem MapsInv.chip (hs : MapsInv s) (i : ℕ) {d : RxDesc} (hd : d.own = false) :
    MapsInv (mapStep cfg s (.chip i d)) where
  mappedAt := by
    intro j hj hown
    by_cases hji : j = i
    · rw [hji] at hown
      simp only [mapStep, Function.update_self, hd] at hown
      cases hown
    · simp only [mapStep, Function.update_of_ne hji] at hown ⊢
      exact (hs.mappedAt j hj hown).congr rfl rfl rfl
  prepared := hs.prepared
  balanced := hs.balanced
  range := hs.range
  next := hs.next

/-- **A round** only gives the buffer of a descriptor that is not the chip's another mbuf. -/
theorem MapsInv.round (hs : MapsInv s) (a : Alloc)
    (hown : (s.side.desc s.side.rxNextDescIndex).own = false) :
    MapsInv (mapStep cfg s (.round a)) where
  mappedAt := by
    intro j hj hj'
    have hne : j ≠ s.side.rxNextDescIndex := by
      rintro rfl
      exact absurd hj' (Bool.eq_false_iff.mp hown)
    exact (hs.mappedAt j hj hj').congr rfl (rxHandle_bufMbuf (.inl hne)) rfl
  prepared := hs.prepared
  balanced := hs.balanced
  range := by
    intro j hj hphy
    set h := (RxCall.start s.side).handle 0x1fff cfg.maxCopySize (fun _ => a) with hh
    have hphy' : (if h.newBuf.isSome then Function.update s.side.bufPhyAddr s.side.rxNextDescIndex 0
        else s.side.bufPhyAddr) j ≠ 0 := hphy
    have hkeeps : j ≠ s.side.rxNextDescIndex ∨ h.newBuf = none := by
      by_contra hboth
      simp only [not_or, not_not] at hboth
      obtain ⟨rfl, hnew⟩ := hboth
      rw [if_pos (Option.isSome_iff_ne_none.mpr hnew), Function.update_self] at hphy'
      exact hphy' rfl
    have hbuf : (mapStep cfg s (.round a)).side.asm.bufMbuf j = s.side.asm.bufMbuf j :=
      rxHandle_bufMbuf hkeeps
    rw [hbuf]
    refine hs.range j hj fun h0 => hphy' ?_
    split
    · rw [Function.update_apply, h0, ite_self]
    · exact h0
  next := hs.next

end Rounds

/-! ### `clearRxTxRings` -/

section Clear

variable {pageSize q index count : ℕ} {maps : ℕ → MapResult} {s : RxMaps}

/-- Below `n` every descriptor is armed with the address its buffer has. -/
def ArmedBelow (pageSize n : ℕ) (s : RxMaps) : Prop :=
  ∀ i < n, s.side.desc i = armedDesc pageSize i (s.side.bufPhyAddr i)

theorem ArmedBelow.batch (h : ArmedBelow pageSize (kRxMemBatchSize * q) s) {r : MapResult}
    (hr : r.armed = kRxMemBatchSize) :
    ArmedBelow pageSize (kRxMemBatchSize * (q + 1)) (s.mapBatch pageSize (kRxMemBatchSize * q) r).2 := by
  intro i hi
  rw [mapBatch_desc, mapBatch_bufPhyAddr, hr]
  rw [Nat.mul_succ] at hi
  by_cases hin : kRxMemBatchSize * q ≤ i
  · rw [if_pos ⟨hin, hi⟩, if_pos ⟨hin, hi⟩]
  · rw [if_neg fun h => hin h.1, if_neg fun h => hin h.1]
    exact h i (by omega)

theorem batchKept_of_armed {r : MapResult} (hprep : (s.side.rxMem q).prepared = 1)
    (hr : r.armed = kRxMemBatchSize) : BatchKept s (kRxMemBatchSize * q) r := by
  refine ⟨by rw [batch_shift]; exact hprep, fun k hk harmed => ?_⟩
  rw [hr] at harmed
  exact absurd hk (Nat.not_lt.mpr harmed)

/-- A batch that does not fail, and on to the next. -/
theorem MapsInv.batchArmed (pageSize : ℕ) {r : MapResult} (hs : MapsInv s) (hr : r.NonZero)
    (hprep : (s.side.rxMem q).prepared = 1) (harmed : r.armed = kRxMemBatchSize) :
    MapsInv ((s.mapBatch pageSize (kRxMemBatchSize * q) r).2.setNextIndex
      ((kRxMemBatchSize * q + kRxMemBatchSize) &&& kRxDescMask)) :=
  (hs.batch hr (batchKept_of_armed hprep harmed)).setNextIndex q

/-- What `clearRxTxRings` asks of the batches from `q` on. -/
def BatchesKept (s : RxMaps) (maps : ℕ → MapResult) (q : ℕ) : Prop :=
  ∀ b, q + b < kNumRxMemDesc → (s.side.rxMem (q + b)).prepared = 1 ∧ (maps b).armed = kRxMemBatchSize

/-- The head of the batches, and what is left of them once it is mapped. -/
theorem batchesKept_iff (pageSize : ℕ) (hq : q < kNumRxMemDesc) : BatchesKept s maps q ↔
    ((s.side.rxMem q).prepared = 1 ∧ (maps 0).armed = kRxMemBatchSize) ∧
    BatchesKept (s.mapBatch pageSize (kRxMemBatchSize * q) (maps 0)).2 (fun n => maps (n + 1)) (q + 1) := by
  have hother : ∀ b, ((s.mapBatch pageSize (kRxMemBatchSize * q) (maps 0)).2.side.rxMem (q + 1 + b)) =
      s.side.rxMem (q + (b + 1)) := by
    intro b
    rw [mapBatch_rxMem, batch_shift, Function.update_of_ne (by omega)]
    congr 1
    omega
  constructor
  · intro h
    refine ⟨h 0 hq, fun b hb => ?_⟩
    rw [hother]
    exact h (b + 1) (by omega)
  · rintro ⟨h0, h⟩ b hb
    cases b with
    | zero => exact h0
    | succ b =>
        have hrest := h b (by omega)
        rw [hother] at hrest
        exact hrest

/-- **Mapping the batches from `q` on**, none of which fails. -/
theorem MapsInv.batches (hs : MapsInv s) (hq : q + count = kNumRxMemDesc)
    (hindex : 0 < count → index = kRxMemBatchSize * q) (hmaps : ∀ b < count, (maps b).NonZero)
    (hkept : BatchesKept s maps q) (harmed : ArmedBelow pageSize (kRxMemBatchSize * q) s) :
    MapsInv (s.mapBuffers pageSize maps index count) ∧
    ArmedBelow pageSize kNumRxDesc (s.mapBuffers pageSize maps index count) := by
  induction count generalizing maps q index s with
  | zero =>
      have hall : kRxMemBatchSize * q = kNumRxDesc := by
        rw [show q = kNumRxMemDesc from hq]
        decide
      rw [hall] at harmed
      exact ⟨hs, harmed⟩
  | succ count ih =>
      have hlt : q < kNumRxMemDesc := by omega
      obtain ⟨⟨hprep, hr⟩, hrest⟩ := (batchesKept_iff pageSize hlt).mp hkept
      have hok : (s.mapBatch pageSize index (maps 0)).1 = true := by
        rw [mapBatch_fst, hr]
        exact decide_eq_true rfl
      rw [RxMaps.mapBuffers, if_pos hok]
      rw [hindex (Nat.succ_pos count)]
      refine ih (hs.batchArmed pageSize (hmaps 0 (Nat.succ_pos count)) hprep hr) (by omega) ?_
        (fun b hb => hmaps (b + 1) (by omega)) hrest (harmed.batch hr)
      intro hpos
      rw [next_batch, Nat.mod_eq_of_lt (by omega)]

/-- Arming every descriptor with the address it has changes none. -/
theorem MapsInv.armAll (hs : MapsInv s) (harmed : ArmedBelow pageSize kNumRxDesc s) :
    MapsInv (s.armAll pageSize) where
  mappedAt := by
    intro i hi _
    have hdesc : (s.armAll pageSize).side.desc i = s.side.desc i := (if_pos hi).trans (harmed i hi).symm
    have hown : (s.side.desc i).own = true := by
      rw [harmed i hi]
      exact armedDesc_own _ _ _
    rw [hdesc]
    exact (hs.mappedAt i hi hown).congr rfl rfl rfl
  prepared := hs.prepared
  balanced := hs.balanced
  range := hs.range
  next := ⟨0, by decide, rfl⟩

theorem MapsInv.clear (hs : MapsInv s) (hmaps : ∀ b < kNumRxMemDesc, (maps b).NonZero)
    (hkept : BatchesKept s maps 0) :
    MapsInv ((s.mapBuffers pageSize maps 0 kNumRxMemDesc).armAll pageSize) := by
  have harmed : ArmedBelow pageSize (kRxMemBatchSize * 0) s := fun i hi => absurd hi (Nat.not_lt_zero i)
  have h := hs.batches (Nat.zero_add _) (fun _ => rfl) hmaps hkept harmed
  exact h.1.armAll h.2

/-- A `complete` too many stays on record. -/
theorem mapBuffers_faulty (h : s.faulty = true) : (s.mapBuffers pageSize maps index count).faulty = true := by
  induction count generalizing maps index s with
  | zero => exact h
  | succ count ih =>
      have hbatch : (s.mapBatch pageSize index (maps 0)).2.faulty = true := by
        show (s.faulty || _) = true
        rw [h, Bool.true_or]
      rw [RxMaps.mapBuffers]
      split
      · exact ih hbatch
      · exact hbatch

theorem armAll_own {i : ℕ} (hi : i < kNumRxDesc) : ((s.armAll pageSize).side.desc i).own = true := by
  have hdesc : (s.armAll pageSize).side.desc i = armedDesc pageSize i (s.side.bufPhyAddr i) := if_pos hi
  rw [hdesc]
  exact armedDesc_own _ _ _

/-- A batch that fails leaves a descriptor to arm whose buffer is not mapped. -/
theorem armed_of_live {r : MapResult} (hs : MapsInv s) (hq : q < kNumRxMemDesc)
    (hlive : ((s.mapBatch pageSize (kRxMemBatchSize * q) r).2.armAll pageSize).Live) :
    r.armed = kRxMemBatchSize := by
  by_contra hne
  have hshort := lt_of_le_of_ne r.armed_le hne
  have hin : kRxMemBatchSize * q ≤ kRxMemBatchSize * q + r.armed ∧
      kRxMemBatchSize * q + r.armed < kRxMemBatchSize * q + kRxMemBatchSize := by omega
  have hi := batch_lt hq hin.2
  have hmapped : (s.mapBatch pageSize (kRxMemBatchSize * q) r).2.mapped (kRxMemBatchSize * q + r.armed) =
      some _ := (hlive.mappedAt _ hi (armAll_own hi)).mapped
  rw [mapBatch_mapped hs hi hin, Nat.add_sub_cancel_left, MapResult.addr?_armed hshort] at hmapped
  cases hmapped

/-- A memory descriptor that is not prepared is completed all the same. -/
theorem prepared_of_balanced (hs : MapsInv s) (hq : q < kNumRxMemDesc)
    (hbal : (s.mapBuffers pageSize maps (kRxMemBatchSize * q) (count + 1)).faulty = false) :
    (s.side.rxMem q).prepared = 1 := by
  rcases hs.prepared q hq with h0 | h1
  · have hbatch : (s.mapBatch pageSize (kRxMemBatchSize * q) (maps 0)).2.faulty = true := by
      show (s.faulty || decide (_ ≤ 0)) = true
      rw [batch_shift, h0]
      exact Bool.or_true _
    rw [RxMaps.mapBuffers] at hbal
    split at hbal
    · rw [mapBuffers_faulty] at hbal
      · cases hbal
      · exact hbatch
    · rw [hbatch] at hbal
      cases hbal
  · exact h1

/-- **If the mappings are live after `clearRxTxRings`**, none of the batches has failed. -/
theorem BatchesKept.of_live (hs : MapsInv s) (hq : q + count = kNumRxMemDesc)
    (hindex : 0 < count → index = kRxMemBatchSize * q) (hmaps : ∀ b < count, (maps b).NonZero)
    (hlive : ((s.mapBuffers pageSize maps index count).armAll pageSize).Live) :
    BatchesKept s maps q := by
  induction count generalizing maps q index s with
  | zero => exact fun b hb => absurd hb (by omega)
  | succ count ih =>
      have hlt : q < kNumRxMemDesc := by omega
      rw [hindex (Nat.succ_pos count)] at hlive
      have hprep := prepared_of_balanced hs hlt hlive.balanced
      rw [RxMaps.mapBuffers] at hlive
      by_cases hok : (s.mapBatch pageSize (kRxMemBatchSize * q) (maps 0)).1 = true
      · have hr : (maps 0).armed = kRxMemBatchSize := by
          rw [mapBatch_fst] at hok
          exact of_decide_eq_true hok
        rw [if_pos hok] at hlive
        have hnext : q + 1 + count = kNumRxMemDesc := by omega
        have hhead : 0 < count → (kRxMemBatchSize * q + kRxMemBatchSize) &&& kRxDescMask =
            kRxMemBatchSize * (q + 1) := by
          intro hpos
          rw [next_batch, Nat.mod_eq_of_lt (by omega)]
        have hrest := ih (hs.batchArmed pageSize (hmaps 0 (Nat.succ_pos count)) hprep hr) hnext hhead
          (fun b hb => hmaps (b + 1) (by omega)) hlive
        exact (batchesKept_iff pageSize hlt).mpr ⟨⟨hprep, hr⟩, hrest⟩
      · rw [if_neg hok] at hlive
        rw [mapBatch_fst, armed_of_live hs hlt hlive] at hok
        exact absurd (decide_eq_true rfl) hok

end Clear

/-! ### Runs -/

section Runs

variable {cfg : RxConfig} {s : RxMaps} {op : MapOp}

theorem batchesKept_zero_iff {maps : ℕ → MapResult} :
    BatchesKept s maps 0 ↔ MapKept s (.clear maps) := by
  simp only [BatchesKept, MapKept, Nat.zero_add]

theorem MapsInv.setup {pageSize : ℕ} {pa : ℕ → ℕ} (asm : RxAssembly)
    (hpa : ∀ i < kNumRxDesc, pa i ≠ 0) : MapsInv (setupRxMap pageSize pa asm) where
  mappedAt := fun i hi _ => ⟨hpa i hi, rfl, rfl⟩
  prepared := fun _ _ => .inr rfl
  balanced := rfl
  range := fun _ _ _ => rfl
  next := ⟨0, by decide, rfl⟩

theorem MapsInv.remap (hs : MapsInv s) {r : MapResult} (hr : r.NonZero)
    (hidle : BatchIdle s s.side.rxMapNextIndex) : MapsInv (mapStep cfg s (.remap r)) := by
  obtain ⟨q, _, hnext⟩ := hs.next
  rw [hnext] at hidle
  simp only [mapStep, hnext]
  split
  · exact (hs.batch hr (hidle.kept r)).setNextIndex q
  · exact hs.batch hr (hidle.kept r)

theorem MapsInv.unmap (hs : MapsInv s) (hidle : BatchIdle s s.side.rxMapNextIndex) :
    MapsInv (s.unmapBatch s.side.rxMapNextIndex) := by
  obtain ⟨q, _, hnext⟩ := hs.next
  rw [hnext] at hidle ⊢
  rw [← mapBatch_initFails 0]
  exact hs.batch (fun k _ h => by cases h) (hidle.kept _)

/-- **One step**: it keeps the invariant if it meets the condition. -/
theorem MapsInv.step (hs : MapsInv s) (hlegal : MapLegal s op) (hkept : MapKept s op) :
    MapsInv (mapStep cfg s op) := by
  cases op with
  | chip i d => exact hs.chip i hlegal.2
  | round a => exact hs.round a hlegal
  | remap r => exact hs.remap hlegal hkept
  | clear maps => exact hs.clear hlegal (batchesKept_zero_iff.mpr hkept)

theorem MapsInv.live_iff (hs : MapsInv s) (hlegal : MapLegal s op) :
    (∀ t ∈ mapStates cfg s op, t.Live) ↔ MapKept s op := by
  constructor
  · intro hlive
    cases op with
    | chip i d => trivial
    | round a => trivial
    | remap r =>
        have hdown := hlive _ (List.mem_cons_self ..)
        obtain ⟨q, hq, hnext⟩ := hs.next
        show BatchIdle s s.side.rxMapNextIndex
        rw [hnext] at hdown ⊢
        exact batchIdle_of_live hs hq hdown
    | clear maps =>
        have hafter := hlive _ (List.mem_singleton_self _)
        exact batchesKept_zero_iff.mp (.of_live hs (Nat.zero_add _) (fun _ => rfl) hlegal hafter)
  · intro hkept t ht
    have hafter : (mapStep cfg s op).Live := (hs.step hlegal hkept).toLive
    cases op with
    | remap r =>
        rcases List.mem_cons.mp ht with rfl | ht
        · exact (hs.unmap hkept).toLive
        · rw [List.mem_singleton.mp ht]
          exact hafter
    | _ =>
        rw [List.mem_singleton.mp ht]
        exact hafter

end Runs

/-- **The mappings are live wherever the chip may write** in every state of a run exactly if a batch is
taken down only while it is prepared and none of its descriptors belongs to the chip, and none fails in
`clearRxTxRings`. -/
theorem rxMaps_live_iff (cfg : RxConfig) (pa : ℕ → ℕ) (asm : RxAssembly)
    (hpa : ∀ i < kNumRxDesc, pa i ≠ 0) (ops : List MapOp) :
    Along (mapStep cfg) (fun s op => MapLegal s op ∧ ∀ t ∈ mapStates cfg s op, t.Live)
      (setupRxMap cfg.pageSize pa asm) ops ↔
    Along (mapStep cfg) (fun s op => MapLegal s op ∧ MapKept s op)
      (setupRxMap cfg.pageSize pa asm) ops := by
  refine along_congr (fun s op hs => and_congr_right fun hlegal => hs.live_iff hlegal) ?_
    (MapsInv.setup asm hpa)
  exact fun s op hs h => hs.step h.1 ((hs.live_iff h.1).mp h.2)

/-- One page after the other. -/
def paged (k : ℕ) : ℕ := 0x1000 * (k + 1)

/-- Sixteen descriptors come back and one round runs.  Mapping their batch anew fails at the sixth
buffer; once the first five have come back it succeeds, and so does `clearRxTxRings`. -/
def remappedAfterFailure : List MapOp :=
  (List.range 16).map (fun i => MapOp.chip i ⟨0, 0, 0⟩) ++
    [MapOp.round .single, MapOp.remap (.segs fun k => if k < 5 then some (paged k) else none)] ++
    (List.range 5).map (fun i => MapOp.chip i ⟨0, 0, 0⟩) ++
    [MapOp.remap (.segs fun k => some (paged k)),
      MapOp.clear fun b => .segs fun k => some (paged (16 * b + k))]

theorem rxMaps_live_iff_remapped :
    Along (mapStep ⟨4096, 256, id⟩)
      (fun s op => MapLegal s op ∧ ∀ t ∈ mapStates ⟨4096, 256, id⟩ s op, t.Live)
      (setupRxMap 4096 paged emptyAssembly) remappedAfterFailure :=
  (rxMaps_live_iff ⟨4096, 256, id⟩ paged emptyAssembly (fun _ _ => Nat.succ_ne_zero _)
    remappedAfterFailure).mpr (by decide +kernel)

/-- **Descriptor 0 gets the address of a mapping that is gone**: in `clearRxTxRings`, right after
`setupRxMap`, the first `initWithOptions` fails. -/
theorem clear_arms_unmapped :
    let start := setupRxMap 4096 paged emptyAssembly
    let s := mapStep ⟨4096, 256, id⟩ start (.clear fun _ => .initFails)
    MapLegal start (.clear fun _ => .initFails) ∧
    s.side.desc 0 = armedDesc 4096 0 0x1000 ∧ (s.side.desc 0).own = true ∧ s.mapped 0 = none ∧
    ¬ s.Live := by
  refine ⟨by decide +kernel, by decide +kernel, by decide +kernel, by decide +kernel, fun h => ?_⟩
  have hmapped := (h.mappedAt 0 (by decide) (by decide +kernel)).mapped
  revert hmapped
  decide +kernel

end Rtl812x.Kext
