import Rtl812x.Kext.Tx

/-!
# The two rings of the transmit side

Two rings go round at their own pace: 1024 descriptors, of which a packet takes as many as it has
segments, and 512 mapping slots, of which it takes one.

* `RingAcct m h n j` — the ring counters agree on `n` descriptors in flight, `j` of them closed;
  `RingAcct.place` and `RingAcct.retire` — placing a packet and retiring a descriptor keep them so;
* `Unclosed` — the descriptors the chip has not closed; none of them is retired or written next
  (`RingAcct.dirty_closed`, `RingAcct.next_closed`);
* `MapAcct s k` — the `k` slots from `txNextMem2Free` on are in use, and no other;
* `txMapPacket_spec` — a call takes the next slot or none; `MapAcct.unmap` — `txUnmapPacket` takes
  the oldest slot down;
* `fillDescs_onRing` — the descriptors of a packet carry its mbuf once.
-/

namespace Rtl812x.Kext

open Circular WrapCounter

/-! ### The ring counters -/

/-- The counters agree on `n` descriptors in flight, of which the chip has closed `j` that are not
yet retired: the close pointer is ahead by these. -/
structure RingAcct (m : Mcfg) (h : TxIndex) (n j : ℕ) : Prop where
  dirty_lt : h.txDirtyDescIndex < kNumTxDesc
  next_eq : h.txNextDescIndex = slot kNumTxDesc h.txDirtyDescIndex n
  tail_lt : h.txTailPtr0 < 2 ^ 32
  close_lt : h.txClosePtr0 < 2 ^ 32
  lag_eq : lag (descPtrPeriod m) h.txTailPtr0 h.txClosePtr0 + j = n
  free_eq : h.txNumFreeDesc = (kNumTxDesc : ℤ) - n
  room : n + 4 ≤ kNumTxDesc

variable {m : Mcfg} {h : TxIndex} {n k j : ℕ}

theorem RingAcct.next_lt (ha : RingAcct m h n j) : h.txNextDescIndex < kNumTxDesc := by
  rw [ha.next_eq]
  exact slot_lt (by decide) _ _

theorem RingAcct.restart (m : Mcfg) : RingAcct m TxIndex.restart 0 0 where
  dirty_lt := by decide
  next_eq := rfl
  tail_lt := by decide
  close_lt := by decide
  lag_eq := by
    show lag (descPtrPeriod m) 0 0 = 0
    exact lag_self (descPtrPeriod_dvd m) (by decide) (Nat.succ_pos _)
  free_eq := rfl
  room := by decide

/-- A packet of at most `kMaxSegs` segments fits whenever the loop of `outputStart` takes one. -/
theorem RingAcct.fits (ha : RingAcct m h n j) (hfree : (kMaxSegs : ℤ) + 3 < h.txNumFreeDesc)
    (hk : k ≤ kMaxSegs) : n + k + 4 ≤ kNumTxDesc := by
  have := ha.free_eq
  omega

/-- **Placing a packet** keeps the counters in agreement. -/
theorem RingAcct.place (ha : RingAcct m h n j) (hfit : n + k + 4 ≤ kNumTxDesc) :
    RingAcct m (h.place k) (n + k) j where
  dirty_lt := ha.dirty_lt
  next_eq := by
    show (h.txNextDescIndex + k) &&& kTxDescMask = slot kNumTxDesc h.txDirtyDescIndex (n + k)
    rw [and_kTxDescMask, ha.next_eq]
    exact slot_slot _ _ _ _
  tail_lt := Nat.mod_lt _ (by decide)
  close_lt := ha.close_lt
  lag_eq := by
    have hlt := kNumTxDesc_lt_descPtrPeriod m
    have hlag := ha.lag_eq
    show lag _ ((h.txTailPtr0 + k) % 2 ^ 32) h.txClosePtr0 + j = n + k
    rw [lag_add (descPtrPeriod_dvd m) ha.close_lt.le (by omega)]
    omega
  free_eq := by
    show h.txNumFreeDesc - k = _
    rw [ha.free_eq]
    omega
  room := hfit

/-- A close-pointer reading is legal when it lies between the last one and the tail. -/
def LegalClose (m : Mcfg) (h : TxIndex) (reg : ℕ) : Prop :=
  ∃ j ≤ lag (descPtrPeriod m) h.txTailPtr0 h.txClosePtr0,
    rtl812xGetHwCloPtr (hwSuppTxNoCloseVer m) reg ≡ h.txClosePtr0 + j [MOD descPtrPeriod m]

instance (m : Mcfg) (h : TxIndex) (reg : ℕ) : Decidable (LegalClose m h reg) :=
  decidable_of_iff (∃ j ∈ List.range (lag (descPtrPeriod m) h.txTailPtr0 h.txClosePtr0 + 1),
    rtl812xGetHwCloPtr (hwSuppTxNoCloseVer m) reg ≡ h.txClosePtr0 + j [MOD descPtrPeriod m])
    (by simp only [LegalClose, List.mem_range, Nat.lt_succ_iff])

/-- **A legal close pointer** leaves `numDone` more descriptors to retire, all of them in flight. -/
theorem RingAcct.retiring (ha : RingAcct m h n j) {reg : ℕ} (hlegal : LegalClose m h reg) :
    RingAcct m { h with txClosePtr0 := rtl812xGetHwCloPtr (hwSuppTxNoCloseVer m) reg } n
      (lag (descPtrPeriod m) (rtl812xGetHwCloPtr (hwSuppTxNoCloseVer m) reg) h.txClosePtr0 + j) := by
  obtain ⟨d, hd, hmod⟩ := hlegal
  have hreg := rtl812xGetHwCloPtr_lt (hwSuppTxNoCloseVer m) reg
  have hpos : 0 < descPtrPeriod m := Nat.succ_pos _
  have hle : lag (descPtrPeriod m) (rtl812xGetHwCloPtr (hwSuppTxNoCloseVer m) reg) h.txClosePtr0 ≤
      lag (descPtrPeriod m) h.txTailPtr0 h.txClosePtr0 :=
    lag_le_of_modEq (descPtrPeriod_dvd m) hpos ha.close_lt.le hd hmod
  refine ⟨ha.dirty_lt, ha.next_eq, ha.tail_lt, hreg, ?_, ha.free_eq, ha.room⟩
  show lag _ h.txTailPtr0 (rtl812xGetHwCloPtr (hwSuppTxNoCloseVer m) reg) + _ = n
  rw [lag_advance (descPtrPeriod_dvd m) hpos ha.close_lt.le hreg.le hle, ← Nat.add_assoc,
    Nat.sub_add_cancel hle]
  exact ha.lag_eq

/-- One descriptor is retired. -/
theorem RingAcct.retire (hr : RingAcct m h (n + 1) (j + 1)) :
    RingAcct m { h with
      txNumFreeDesc := h.txNumFreeDesc + 1
      txDirtyDescIndex := (h.txDirtyDescIndex + 1) &&& kTxDescMask } n j where
  dirty_lt := by
    show (h.txDirtyDescIndex + 1) &&& kTxDescMask < kNumTxDesc
    rw [and_kTxDescMask]
    exact Nat.mod_lt _ (by decide)
  next_eq := by
    show h.txNextDescIndex = slot kNumTxDesc ((h.txDirtyDescIndex + 1) &&& kTxDescMask) n
    rw [and_kTxDescMask, hr.next_eq, Nat.add_comm n 1]
    exact (slot_slot kNumTxDesc h.txDirtyDescIndex 1 n).symm
  tail_lt := hr.tail_lt
  close_lt := hr.close_lt
  lag_eq := by
    have := hr.lag_eq
    show lag _ h.txTailPtr0 h.txClosePtr0 + j = n
    omega
  free_eq := by
    have := hr.free_eq
    show h.txNumFreeDesc + 1 = _
    omega
  room := by
    have := hr.room
    omega

/-- A descriptor not yet closed: one of those from the close pointer up to the tail, counted back from
the next free one. -/
def Unclosed (m : Mcfg) (h : TxIndex) (i : ℕ) : Prop :=
  ∃ k < lag (descPtrPeriod m) h.txTailPtr0 h.txClosePtr0, slot kNumTxDesc i (k + 1) = h.txNextDescIndex

/-- Unclosed descriptors are in flight, behind those still to be retired. -/
theorem RingAcct.unclosed_eq (ha : RingAcct m h n j) {i : ℕ} (hi : i < kNumTxDesc)
    (hopen : Unclosed m h i) : ∃ l, j ≤ l ∧ l < n ∧ i = slot kNumTxDesc h.txDirtyDescIndex l := by
  obtain ⟨k, hk, hslot⟩ := hopen
  have hlag := ha.lag_eq
  refine ⟨n - 1 - k, by omega, by omega, slot_inj_left (k := k + 1) hi (slot_lt (by decide) _ _) ?_⟩
  rw [hslot, slot_slot, ha.next_eq]
  congr 1
  omega

/-- What is retired next is closed. -/
theorem RingAcct.dirty_closed (ha : RingAcct m h n (j + 1)) : ¬ Unclosed m h h.txDirtyDescIndex := by
  intro hopen
  obtain ⟨l, hl, hln, hslot⟩ := ha.unclosed_eq ha.dirty_lt hopen
  have hroom := ha.room
  have h0 : slot kNumTxDesc h.txDirtyDescIndex 0 = slot kNumTxDesc h.txDirtyDescIndex l := by
    rw [← hslot, slot_zero ha.dirty_lt]
  have := slot_inj (by omega) (by omega) h0
  omega

/-- What is placed next is free. -/
theorem RingAcct.next_closed (ha : RingAcct m h n j) (hfit : n + k + 4 ≤ kNumTxDesc) {i : ℕ}
    (hi : i < kNumTxDesc) (hopen : Unclosed m h i) : ¬ InWindow kNumTxDesc h.txNextDescIndex k i := by
  obtain ⟨l, _, hln, hslot⟩ := ha.unclosed_eq hi hopen
  rintro ⟨q, hq, hnext⟩
  rw [ha.next_eq, slot_slot, hslot] at hnext
  have := slot_inj (by omega) (by omega) hnext
  omega

/-! ### The mapping slots -/

/-- The packet each slot is prepared for. -/
def TxSide.wired (s : TxSide) (i : ℕ) : Option ℕ := (s.txMem i).wired

/-- The `k` slots from `txNextMem2Free` on are the ones in use. -/
structure MapAcct (s : TxSide) (k : ℕ) : Prop where
  free_lt : s.txNextMem2Free < kNumTxMemDesc
  use_eq : s.txNextMem2Use = slot kNumTxMemDesc s.txNextMem2Free k
  num_eq : s.txNumFreeMem = (kNumTxMemDesc : ℤ) - k
  room : k < kNumTxMemDesc
  used : ∀ o ∈ window kNumTxMemDesc s.txNextMem2Free k s.wired, o.isSome = true
  unused : ∀ i < kNumTxMemDesc, ¬ InWindow kNumTxMemDesc s.txNextMem2Free k i → s.wired i = none
  active : ∀ i < kNumTxMemDesc, (s.wired i).isSome = true →
    (s.txMem i).md = true ∧ (s.txMem i).active = true

/-- The packets the slots in use are prepared for, oldest first. -/
def TxSide.mapped (s : TxSide) (k : ℕ) : List (Option ℕ) :=
  window kNumTxMemDesc s.txNextMem2Free k s.wired

/-- The ring, from the oldest descriptor in flight on. -/
def TxSide.onRing (s : TxSide) (n : ℕ) : List (Option ℕ) :=
  window kNumTxDesc s.hw.txDirtyDescIndex n s.txMbuf

section Mapping

variable {s s' : TxSide}

theorem MapAcct.use_lt (ha : MapAcct s k) : s.txNextMem2Use < kNumTxMemDesc := by
  rw [ha.use_eq]
  exact slot_lt (by decide) _ _

/-- The slot taken next is not in use. -/
theorem MapAcct.use_unused (ha : MapAcct s k) :
    ¬ InWindow kNumTxMemDesc s.txNextMem2Free k s.txNextMem2Use := by
  rw [ha.use_eq]
  exact not_inWindow_next ha.room

/-- A write to one slot. -/
theorem wired_update {i : ℕ} {t : TxMem} (hmem : s'.txMem = Function.update s.txMem i t) :
    s'.wired = Function.update s.wired i t.wired := by
  funext l
  rw [TxSide.wired, hmem]
  by_cases hl : l = i
  · rw [hl, Function.update_self, Function.update_self]
  · rw [Function.update_of_ne hl, Function.update_of_ne hl, TxSide.wired]

/-- What only touches the next slot, and leaves it unprepared, keeps the accounting. -/
theorem MapAcct.untouched (ha : MapAcct s k) (hfree : s'.txNextMem2Free = s.txNextMem2Free)
    (huse : s'.txNextMem2Use = s.txNextMem2Use) (hnum : s'.txNumFreeMem = s.txNumFreeMem)
    (hmem : ∀ i, i ≠ s.txNextMem2Use → s'.txMem i = s.txMem i)
    (hnone : s'.wired s.txNextMem2Use = none) : MapAcct s' k ∧ s'.mapped k = s.mapped k := by
  have hwired : s'.wired = s.wired := by
    funext i
    by_cases hi : i = s.txNextMem2Use
    · rw [hi, hnone, ha.unused _ ha.use_lt ha.use_unused]
    · rw [TxSide.wired, TxSide.wired, hmem i hi]
  refine ⟨⟨?_, ?_, ?_, ha.room, ?_, ?_, ?_⟩, ?_⟩
  · rw [hfree]
    exact ha.free_lt
  · rw [huse, hfree]
    exact ha.use_eq
  · rw [hnum]
    exact ha.num_eq
  · rw [hfree, hwired]
    exact ha.used
  · rw [hfree, hwired]
    exact ha.unused
  · intro i hi hsome
    by_cases hiu : i = s.txNextMem2Use
    · rw [hiu, hnone] at hsome
      exact absurd hsome (by decide)
    · rw [hwired] at hsome
      rw [hmem i hiu]
      exact ha.active i hi hsome
  · rw [TxSide.mapped, TxSide.mapped, hfree, hwired]

/-- **A mapped packet takes the next slot.** -/
theorem MapAcct.taken (ha : MapAcct s k) (hroom : k + 1 < kNumTxMemDesc) {pkt : ℕ}
    (hfree : s'.txNextMem2Free = s.txNextMem2Free)
    (huse : s'.txNextMem2Use = (s.txNextMem2Use + 1) &&& kTxMemDescMask)
    (hnum : s'.txNumFreeMem = s.txNumFreeMem - 1)
    (hmem : s'.txMem = Function.update s.txMem s.txNextMem2Use ⟨true, some pkt, true, true⟩) :
    MapAcct s' (k + 1) ∧ s'.mapped (k + 1) = s.mapped k ++ [some pkt] := by
  have hwired : s'.wired = Function.update s.wired (slot kNumTxMemDesc s.txNextMem2Free k) (some pkt) := by
    rw [wired_update hmem, ha.use_eq]
  have hmapped : s'.mapped (k + 1) = s.mapped k ++ [some pkt] := by
    rw [TxSide.mapped, TxSide.mapped, hfree, hwired]
    exact window_update_next ha.room _ _ _
  refine ⟨⟨?_, ?_, ?_, hroom, ?_, ?_, ?_⟩, hmapped⟩
  · rw [hfree]
    exact ha.free_lt
  · rw [huse, hfree, and_kTxMemDescMask, ha.use_eq]
    exact slot_slot _ _ _ _
  · rw [hnum, ha.num_eq]
    omega
  · show ∀ o ∈ s'.mapped (k + 1), _
    rw [hmapped]
    intro o ho
    rcases List.mem_append.mp ho with ho | ho
    · exact ha.used o ho
    · rw [List.mem_singleton.mp ho]
      rfl
  · intro i hi hout
    rw [hfree, inWindow_snoc_iff, not_or] at hout
    rw [hwired, Function.update_of_ne (fun he => hout.2 he.symm)]
    exact ha.unused i hi hout.1
  · intro i hi hsome
    by_cases hiu : i = s.txNextMem2Use
    · rw [hmem, hiu, Function.update_self]
      exact ⟨rfl, rfl⟩
    · rw [hwired, ← ha.use_eq, Function.update_of_ne hiu] at hsome
      rw [hmem, Function.update_of_ne hiu]
      exact ha.active i hi hsome

/-- **Unmapping takes the oldest slot down.** -/
theorem MapAcct.unmap (ha : MapAcct s (k + 1)) (pkt : ℕ) :
    MapAcct (txUnmapPacket pkt s) k ∧
    s.mapped (k + 1) = s.wired s.txNextMem2Free :: (txUnmapPacket pkt s).mapped k := by
  have hnext : (txUnmapPacket pkt s).txNextMem2Free = slot kNumTxMemDesc s.txNextMem2Free 1 :=
    and_kTxMemDescMask _
  have hwired : (txUnmapPacket pkt s).wired = Function.update s.wired s.txNextMem2Free none :=
    wired_update (t := ⟨(s.txMem s.txNextMem2Free).md, none, false, false⟩) rfl
  have hk : k < kNumTxMemDesc := by
    have := ha.room
    omega
  have hout : ¬ InWindow kNumTxMemDesc (slot kNumTxMemDesc s.txNextMem2Free 1) k s.txNextMem2Free :=
    first_not_inWindow ha.free_lt hk
  have hmapped : (txUnmapPacket pkt s).mapped k =
      window kNumTxMemDesc (slot kNumTxMemDesc s.txNextMem2Free 1) k s.wired := by
    rw [TxSide.mapped, hnext, hwired]
    exact window_update_outside hout
  have hcons : s.mapped (k + 1) = s.wired s.txNextMem2Free :: (txUnmapPacket pkt s).mapped k := by
    rw [hmapped]
    exact window_cons ha.free_lt k s.wired
  refine ⟨⟨?_, ?_, ?_, hk, ?_, ?_, ?_⟩, hcons⟩
  · rw [hnext]
    exact slot_lt (by decide) _ _
  · show s.txNextMem2Use = slot _ (txUnmapPacket pkt s).txNextMem2Free k
    rw [hnext, slot_slot, Nat.add_comm 1 k]
    exact ha.use_eq
  · show s.txNumFreeMem + 1 = _
    rw [ha.num_eq]
    omega
  · intro o ho
    exact ha.used o (by
      show o ∈ s.mapped (k + 1)
      rw [hcons]
      exact List.mem_cons_of_mem _ ho)
  · intro i hi hnot
    rw [hnext] at hnot
    rw [hwired]
    by_cases hif : i = s.txNextMem2Free
    · rw [hif, Function.update_self]
    · rw [Function.update_of_ne hif]
      apply ha.unused i hi
      rw [inWindow_succ_iff ha.free_lt, not_or]
      exact ⟨fun he => hif he.symm, hnot⟩
  · intro i hi hsome
    by_cases hif : i = s.txNextMem2Free
    · rw [hwired, hif, Function.update_self] at hsome
      exact absurd hsome (by decide)
    · rw [hwired, Function.update_of_ne hif] at hsome
      have hmem : (txUnmapPacket pkt s).txMem i = s.txMem i := Function.update_of_ne hif _ _
      rw [hmem]
      exact ha.active i hi hsome

/-- The accounting is about the slots and their three counters only. -/
theorem MapAcct.congr (ha : MapAcct s k) (hfree : s'.txNextMem2Free = s.txNextMem2Free)
    (huse : s'.txNextMem2Use = s.txNextMem2Use) (hnum : s'.txNumFreeMem = s.txNumFreeMem)
    (hmem : s'.txMem = s.txMem) : MapAcct s' k := by
  refine (ha.untouched hfree huse hnum (fun i _ => by rw [hmem]) ?_).1
  rw [TxSide.wired, hmem]
  exact ha.unused _ ha.use_lt ha.use_unused

/-- A slot that is given back after all. -/
theorem MapAcct.givenBack (ha : MapAcct s k) (hfree : s'.txNextMem2Free = s.txNextMem2Free)
    (huse : s'.txNextMem2Use = s.txNextMem2Use) (hnum : s'.txNumFreeMem = s.txNumFreeMem)
    {t : TxMem} (hmem : s'.txMem = Function.update s.txMem s.txNextMem2Use t)
    (ht : t.wired = none) : MapAcct s' k ∧ s'.mapped k = s.mapped k := by
  refine ha.untouched hfree huse hnum (fun i hi => by rw [hmem, Function.update_of_ne hi]) ?_
  rw [wired_update hmem, Function.update_self, ht]

/-- What mapping a packet leaves alone. -/
structure SameRing (s s' : TxSide) : Prop where
  hw : s'.hw = s.hw
  txMbuf : s'.txMbuf = s.txMbuf
  trace : s'.trace = s.trace

/-- **`txMapPacket`** with a slot to spare: the packet is not mapped and nothing is lost, or it
takes the next slot. -/
theorem txMapPacket_spec {cfg : TxConfig} {p : TxPacket} {maxSegs : ℕ}
    (hroom : (virtualSegments cfg.pageSize p.chain).length ≤ maxSegs → 1 < s.txNumFreeMem)
    (r : TxMapResult) (vector : ℕ → Segment) (ha : MapAcct s k) :
    SameRing s (txMapPacket cfg p maxSegs r vector s).2.2 ∧
    ((txMapPacket cfg p maxSegs r vector s).1 = 0 ∧
      MapAcct (txMapPacket cfg p maxSegs r vector s).2.2 k ∧
      (txMapPacket cfg p maxSegs r vector s).2.2.mapped k = s.mapped k ∨
    (txMapPacket cfg p maxSegs r vector s).1 = (virtualSegments cfg.pageSize p.chain).length ∧
      (virtualSegments cfg.pageSize p.chain).length ≤ maxSegs ∧
      MapAcct (txMapPacket cfg p maxSegs r vector s).2.2 (k + 1) ∧
      (txMapPacket cfg p maxSegs r vector s).2.2.mapped (k + 1) = s.mapped k ++ [some p.id]) := by
  have hunused := ha.unused _ ha.use_lt ha.use_unused
  by_cases hlen : maxSegs < (virtualSegments cfg.pageSize p.chain).length
  · rw [txMapPacket, if_pos hlen]
    exact ⟨⟨rfl, rfl, rfl⟩, Or.inl ⟨rfl, ha, rfl⟩⟩
  have hfree := hroom (by omega)
  have hk : k + 1 < kNumTxMemDesc := by
    have := ha.num_eq
    omega
  have hback : s.txNumFreeMem - 1 + 1 = s.txNumFreeMem := by omega
  rw [txMapPacket, if_neg hlen, if_pos hfree]
  cases r with
  | initFails =>
      exact ⟨⟨rfl, rfl, rfl⟩, Or.inl ⟨rfl, ha.untouched rfl rfl hback (fun _ _ => rfl) hunused⟩⟩
  | prepareFails =>
      exact ⟨⟨rfl, rfl, rfl⟩, Or.inl ⟨rfl, ha.givenBack rfl rfl hback rfl rfl⟩⟩
  | setFails =>
      exact ⟨⟨rfl, rfl, rfl⟩, Or.inl ⟨rfl, ha.givenBack rfl rfl hback rfl rfl⟩⟩
  | segs iova =>
      by_cases hall : (List.range (virtualSegments cfg.pageSize p.chain).length).all
          fun i => (iova i).isSome
      · simp only [txMapSlot, hall, if_true]
        exact ⟨⟨rfl, rfl, rfl⟩, Or.inr ⟨trivial, by omega, ha.taken hk rfl rfl rfl rfl⟩⟩
      · simp only [txMapSlot, hall, if_false, Bool.false_eq_true]
        exact ⟨⟨rfl, rfl, rfl⟩, Or.inl ⟨trivial, ha.givenBack rfl rfl hback rfl rfl⟩⟩

end Mapping

/-! ### The descriptors of a packet -/

section Filling

variable {cmd opts2 : UInt32} {pkt d : ℕ} {s : TxSide} {segs : List Segment}

/-- Filling descriptors changes the ring only. -/
theorem fillDescs_frame (first : Bool) (index : ℕ) :
    fillDescs cmd opts2 pkt first segs index s = { s with
      txDesc := (fillDescs cmd opts2 pkt first segs index s).txDesc
      txMbuf := (fillDescs cmd opts2 pkt first segs index s).txMbuf } := by
  induction segs generalizing first index s with
  | nil => rfl
  | cons seg rest ih =>
      rw [fillDescs]
      nth_rewrite 1 [ih]
      rfl

theorem slot_succ_and_mask (d n : ℕ) :
    (slot kNumTxDesc d n + 1) &&& kTxDescMask = slot kNumTxDesc d (n + 1) := by
  rw [and_kTxDescMask]
  exact slot_slot _ _ _ _

/-- The descriptors of a packet follow those in flight; the last one carries its mbuf. -/
theorem fillDescs_window (first : Bool) (hsegs : segs ≠ []) (hfit : n + segs.length ≤ kNumTxDesc) :
    window kNumTxDesc d (n + segs.length)
      (fillDescs cmd opts2 pkt first segs (slot kNumTxDesc d n) s).txMbuf =
    window kNumTxDesc d n s.txMbuf ++ (List.replicate (segs.length - 1) none ++ [some pkt]) := by
  induction segs generalizing first n s with
  | nil => exact absurd rfl hsegs
  | cons seg rest ih =>
      have hn : n < kNumTxDesc := by
        rw [List.length_cons] at hfit
        omega
      rw [fillDescs, slot_succ_and_mask]
      by_cases hrest : rest = []
      · subst hrest
        rw [fillDescs, if_pos rfl]
        exact window_update_next hn _ _ _
      · have hpos : 0 < rest.length := List.length_pos_iff.mpr hrest
        rw [show n + (seg :: rest).length = n + 1 + rest.length by rw [List.length_cons]; omega,
          ih false hrest (by rw [List.length_cons] at hfit; omega),
          show (seg :: rest).length - 1 = rest.length - 1 + 1 by rw [List.length_cons]; omega]
        show window kNumTxDesc d (n + 1) (Function.update s.txMbuf _ _) ++ _ = _
        rw [window_update_next hn, if_neg hrest, List.replicate_succ, List.append_assoc]
        rfl

/-- **The packet joins the ring once**, with its last descriptor. -/
theorem fillDescs_onRing (first : Bool) (hsegs : segs ≠ []) (hfit : n + segs.length ≤ kNumTxDesc) :
    (window kNumTxDesc d (n + segs.length)
      (fillDescs cmd opts2 pkt first segs (slot kNumTxDesc d n) s).txMbuf).reduceOption =
    (window kNumTxDesc d n s.txMbuf).reduceOption ++ [pkt] := by
  rw [fillDescs_window first hsegs hfit, List.reduceOption_append, List.reduceOption_append,
    List.reduceOption_replicate_none]
  rfl

/-- The other descriptors are left alone. -/
theorem fillDescs_outside (first : Bool) {i : ℕ}
    (hout : ¬ InWindow kNumTxDesc d (n + segs.length) i) :
    (fillDescs cmd opts2 pkt first segs (slot kNumTxDesc d n) s).txMbuf i = s.txMbuf i ∧
    (fillDescs cmd opts2 pkt first segs (slot kNumTxDesc d n) s).txDesc i = s.txDesc i := by
  induction segs generalizing first n s with
  | nil => exact ⟨rfl, rfl⟩
  | cons seg rest ih =>
      rw [show n + (seg :: rest).length = n + 1 + rest.length by rw [List.length_cons]; omega] at hout
      have hne : i ≠ slot kNumTxDesc d n := fun he => hout ⟨n, by omega, he.symm⟩
      rw [fillDescs, slot_succ_and_mask, (ih false hout).1, (ih false hout).2]
      exact ⟨Function.update_of_ne hne _ _, Function.update_of_ne hne _ _⟩

/-- Placing a packet moves the counters on and fills its descriptors. -/
theorem placePacket_frame (cmd opts2 : UInt32) (pkt : ℕ) (segs : List Segment) (s : TxSide) :
    placePacket cmd opts2 pkt segs s = { s with
      hw := s.hw.place segs.length
      txDesc := (placePacket cmd opts2 pkt segs s).txDesc
      txMbuf := (fillDescs cmd opts2 pkt true segs s.hw.txNextDescIndex
        { s with hw := s.hw.place segs.length }).txMbuf } :=
  congrArg (fun t : TxSide => { t with txDesc := (placePacket cmd opts2 pkt segs s).txDesc })
    (fillDescs_frame true s.hw.txNextDescIndex)

end Filling

end Rtl812x.Kext
