import Rtl812x.Kext.TxRing

/-!
# The invariant of the transmit ring

The counters say which descriptors are in flight, and an mbuf stands in the last descriptor of its
packet until it is freed.

* `outputPacket_cases` — what a round of `outputStart` does to the ring: the packet is freed, or it is
  placed and its mbuf goes to `lastIndex`;
* `RingInv` — **the invariant**: the counters agree, mbufs stand in flight only and in last descriptors,
  and every packet taken is freed or on the ring, once;
* `RingInv.output`, `RingInv.readClose`, `RingInv.retire`, `RingInv.clearDesc`, `RingInv.restart` — one
  rule for each statement that changes the ring.
-/

namespace Rtl812x.Kext.TxRing

open Circular WrapCounter Slots

variable {cfg : TxConfig} {vtd : Bool} {d d' : TxSide} {o : Offer} {taken : List ℕ} {n j i : ℕ}

/-! ### What a round does to the ring -/

/-- The packets freed so far. -/
def frees (trace : List TxEvent) : List ℕ :=
  trace.filterMap fun
    | .free p => some p
    | _ => none

/-- The ring is left alone. -/
structure RingKept (d d' : TxSide) : Prop where
  hw : d'.hw = d.hw
  txDesc : d'.txDesc = d.txDesc
  txMbuf : d'.txMbuf = d.txMbuf
  frees : frees d'.trace = frees d.trace

theorem txMapSlot_ringKept (pkt m saveMem : ℕ) (r : TxMapResult) (d : TxSide) :
    RingKept d (txMapSlot pkt m saveMem r d).2 := by
  cases r with
  | segs iova =>
      rw [txMapSlot]
      split <;> exact ⟨rfl, rfl, rfl, rfl⟩
  | _ => exact ⟨rfl, rfl, rfl, rfl⟩

theorem txMapPacket_ringKept (cfg : TxConfig) (p : TxPacket) (maxSegs : ℕ) (r : TxMapResult)
    (vector : ℕ → Segment) (d : TxSide) :
    RingKept d (txMapPacket cfg p maxSegs r vector d).2.2 ∧
    (txMapPacket cfg p maxSegs r vector d).1 ≤ maxSegs := by
  have hslot := txMapSlot_ringKept p.id (virtualSegments cfg.pageSize p.chain).length d.txNextMem2Use r
    (takeMem cfg.pageSize (virtualSegments cfg.pageSize p.chain) d)
  rw [txMapPacket]
  split
  case isTrue => exact ⟨⟨rfl, rfl, rfl, rfl⟩, Nat.zero_le _⟩
  case isFalse hlen =>
    split
    case isFalse => exact ⟨⟨rfl, rfl, rfl, rfl⟩, by simpa using hlen⟩
    case isTrue =>
      simp only
      split
      · exact ⟨⟨hslot.hw, hslot.txDesc, hslot.txMbuf, hslot.frees⟩, by simpa using hlen⟩
      · exact ⟨⟨hslot.hw, hslot.txDesc, hslot.txMbuf, hslot.frees⟩, Nat.zero_le _⟩

/-- Both ways to the segments leave the ring alone and give at most `kMaxSegs`. -/
theorem segments_ringKept (cfg : TxConfig) (vtd : Bool) (d : TxSide)
    (hcursor : o.cursor.length ≤ kMaxSegs) :
    RingKept d (segments cfg vtd o d).2 ∧ (segments cfg vtd o d).1.length ≤ kMaxSegs := by
  cases vtd with
  | false => exact ⟨⟨rfl, rfl, rfl, rfl⟩, hcursor⟩
  | true =>
      obtain ⟨hkept, hlen⟩ := txMapPacket_ringKept cfg o.pkt kMaxSegs o.result o.vector d
      simp only [segments, if_true, List.length_map, List.length_range]
      exact ⟨hkept, hlen⟩

/-- Where the mbuf of a packet goes that is placed. -/
def lastIndex (cfg : TxConfig) (vtd : Bool) (o : Offer) (d : TxSide) : Option ℕ :=
  let segs := (segments cfg vtd o d).1
  if o.pkt.tsoError ∨ segs = [] then none
  else some (slot kNumTxDesc d.hw.txNextDescIndex (segs.length - 1))

/-- **A round of `outputStart`** frees the packet or places it. -/
theorem outputPacket_cases (cfg : TxConfig) (vtd : Bool) (d : TxSide)
    (hcursor : o.cursor.length ≤ kMaxSegs) :
    (∃ d', RingKept d d' ∧ outputPacket cfg vtd o d = freePacket o.pkt.id d') ∨
    ∃ d' segs cmd opts2, RingKept d d' ∧ segs ≠ [] ∧ segs.length ≤ kMaxSegs ∧
      lastIndex cfg vtd o d = some (slot kNumTxDesc d.hw.txNextDescIndex (segs.length - 1)) ∧
      outputPacket cfg vtd o d = placePacket cmd opts2 o.pkt.id segs d' := by
  obtain ⟨hkept, hlen⟩ := segments_ringKept cfg vtd d hcursor
  rw [outputPacket]
  by_cases htso : o.pkt.tsoError = true
  · rw [if_pos htso]
    exact Or.inl ⟨d, ⟨rfl, rfl, rfl, rfl⟩, rfl⟩
  · rw [if_neg htso]
    by_cases hsegs : (segments cfg vtd o d).1 = []
    · simp only [if_pos hsegs]
      exact Or.inl ⟨_, hkept, rfl⟩
    · simp only [if_neg hsegs]
      refine Or.inr ⟨_, _, _, _, hkept, hsegs, hlen, ?_, rfl⟩
      simp only [lastIndex, htso, hsegs, or_self, if_false, Bool.false_eq_true]

/-! ### The mbufs of a placed packet -/

section Filling

variable {cmd opts2 : UInt32} {pkt a : ℕ} {segs : List Segment}

/-- An mbuf stands in a descriptor that is marked as the last of its packet. -/
def MarkedLast (d : TxSide) : Prop := ∀ i p, d.txMbuf i = some p → (d.txDesc i).opts1 &&& lastFrag ≠ 0

/-- Further bits do not take a mark away. -/
theorem or_and_ne_zero {x m : UInt32} (h : x &&& m ≠ 0) (y : UInt32) : (x ||| y) &&& m ≠ 0 := by
  intro hzero
  apply h
  rw [← UInt32.toNat_inj] at hzero ⊢
  rw [UInt32.toNat_and, UInt32.toNat_or, Nat.and_or_distrib_right] at hzero
  rw [UInt32.toNat_and]
  exact (Nat.or_eq_zero_iff.mp hzero).1

theorem fillDescs_markedLast (first : Bool) (index : ℕ) (hd : MarkedLast d) :
    MarkedLast (fillDescs cmd opts2 pkt first segs index d) := by
  induction segs generalizing first index d with
  | nil => exact hd
  | cons seg rest ih =>
      rw [fillDescs]
      apply ih
      intro i p hp
      by_cases hi : i = index
      · subst hi
        simp only [Function.update_self] at hp ⊢
        by_cases hrest : rest = []
        · rw [if_pos hrest]
          refine or_and_ne_zero ?_ _
          rw [UInt32.or_comm]
          exact or_and_ne_zero (by decide) _
        · rw [if_neg hrest] at hp
          cases hp
      · simp only [Function.update_of_ne hi] at hp ⊢
        exact hd i p hp

theorem placePacket_markedLast (hd : MarkedLast d) : MarkedLast (placePacket cmd opts2 pkt segs d) := by
  have hfill : MarkedLast (fillDescs cmd opts2 pkt true segs d.hw.txNextDescIndex
      { d with hw := d.hw.place segs.length }) := fillDescs_markedLast true _ hd
  intro i p hp
  have hlast := hfill i p hp
  simp only [placePacket]
  by_cases hi : i = d.hw.txNextDescIndex
  · subst hi
    rw [Function.update_self]
    exact or_and_ne_zero hlast _
  · rw [Function.update_of_ne hi]
    exact hlast

/-- The packet joins the mbufs of the ring once. -/
theorem fillDescs_held (first : Bool) (hsegs : segs ≠ []) (hlen : segs.length ≤ kNumTxDesc)
    (hempty : ∀ l < segs.length, d.txMbuf (slot kNumTxDesc a (n + l)) = none) :
    (held kNumTxDesc (fillDescs cmd opts2 pkt first segs (slot kNumTxDesc a n) d).txMbuf).Perm
      (pkt :: held kNumTxDesc d.txMbuf) := by
  induction segs generalizing first n d with
  | nil => exact absurd rfl hsegs
  | cons seg rest ih =>
      have hhere : d.txMbuf (slot kNumTxDesc a n) = none := hempty 0 (Nat.succ_pos _)
      rw [fillDescs, slot_succ_and_mask]
      by_cases hrest : rest = []
      · subst hrest
        rw [fillDescs, if_pos rfl]
        exact held_put (slot_lt (by decide) _ _) hhere pkt
      · simp only [if_neg hrest, update_none_self hhere]
        rw [List.length_cons] at hlen hempty
        refine ih false hrest (by omega) fun l hl => ?_
        show d.txMbuf (slot kNumTxDesc a (n + 1 + l)) = none
        rw [Nat.add_right_comm]
        exact hempty (l + 1) (by omega)

/-- An mbuf on the ring was there before, or it is the packet's and stands in its last descriptor. -/
theorem fillDescs_txMbuf (first : Bool)
    (hi : (fillDescs cmd opts2 pkt first segs (slot kNumTxDesc a n) d).txMbuf i ≠ none) :
    d.txMbuf i ≠ none ∨ i = slot kNumTxDesc a (n + segs.length - 1) := by
  induction segs generalizing first n d with
  | nil => exact Or.inl hi
  | cons seg rest ih =>
      rw [fillDescs, slot_succ_and_mask] at hi
      have hlen : n + 1 + rest.length - 1 = n + (seg :: rest).length - 1 := by
        rw [List.length_cons]
        omega
      rcases ih false hi with hold | hnew
      · by_cases hidx : i = slot kNumTxDesc a n
        · subst hidx
          simp only [Function.update_self] at hold
          by_cases hrest : rest = []
          · exact Or.inr (by rw [hrest]; rfl)
          · rw [if_neg hrest] at hold
            exact absurd rfl hold
        · simp only [Function.update_of_ne hidx] at hold
          exact Or.inl hold
      · rw [hlen] at hnew
        exact Or.inr hnew

/-- A placed packet leaves the other descriptors alone. -/
theorem placePacket_outside (hnext : d.hw.txNextDescIndex < kNumTxDesc) (hsegs : segs ≠ [])
    (hout : ¬ InWindow kNumTxDesc d.hw.txNextDescIndex segs.length i) :
    (placePacket cmd opts2 pkt segs d).txDesc i = d.txDesc i ∧
    (placePacket cmd opts2 pkt segs d).txMbuf i = d.txMbuf i := by
  have hne : i ≠ d.hw.txNextDescIndex := by
    rintro rfl
    exact hout ⟨0, List.length_pos_iff.mpr hsegs, slot_zero hnext⟩
  rw [← Nat.zero_add segs.length] at hout
  refine ⟨?_, ?_⟩
  · show Function.update _ d.hw.txNextDescIndex _ i = _
    rw [Function.update_of_ne hne, ← slot_zero hnext]
    exact (fillDescs_outside true hout).2
  · rw [placePacket_frame, ← slot_zero hnext]
    exact (fillDescs_outside true hout).1

end Filling

/-! ### The invariant -/

/-- With `n` descriptors in flight, `j` of them closed and not yet retired. -/
structure RingInv (m : Mcfg) (d : TxSide) (taken : List ℕ) (n j : ℕ) : Prop where
  acct : RingAcct m d.hw n j
  clean : ∀ i, ¬ InWindow kNumTxDesc d.hw.txDirtyDescIndex n i → d.txMbuf i = none
  last : MarkedLast d
  once : taken.Perm (frees d.trace ++ held kNumTxDesc d.txMbuf)

section Rules

variable {m : Mcfg}

theorem RingInv.congr (hr : RingInv m d taken n j) (hk : RingKept d d') : RingInv m d' taken n j where
  acct := by
    rw [hk.hw]
    exact hr.acct
  clean := by
    rw [hk.hw, hk.txMbuf]
    exact hr.clean
  last := by
    rw [MarkedLast, hk.txMbuf, hk.txDesc]
    exact hr.last
  once := by
    rw [hk.frees, hk.txMbuf]
    exact hr.once

/-- Mbufs stand on the ring only. -/
theorem RingInv.mbuf_lt (hr : RingInv m d taken n j) (hi : d.txMbuf i ≠ none) : i < kNumTxDesc := by
  by_contra hge
  apply hi
  apply hr.clean
  rintro ⟨l, -, rfl⟩
  exact hge (slot_lt (by decide) _ _)

/-- A packet is taken and freed. -/
theorem RingInv.free (hr : RingInv m d taken n j) (p : ℕ) :
    RingInv m (freePacket p d) (p :: taken) n j where
  acct := hr.acct
  clean := hr.clean
  last := hr.last
  once := hr.once.cons p

/-- **A packet is taken and placed.** -/
theorem RingInv.place (hr : RingInv m d taken n j) {segs : List Segment} (hsegs : segs ≠ [])
    (hfit : n + segs.length + 4 ≤ kNumTxDesc) (cmd opts2 : UInt32) (p : ℕ) :
    RingInv m (placePacket cmd opts2 p segs d) (p :: taken) (n + segs.length) j where
  acct := by
    rw [placePacket_frame]
    exact hr.acct.place hfit
  clean := by
    intro i hout
    rw [placePacket_frame] at hout ⊢
    replace hout : ¬ InWindow kNumTxDesc d.hw.txDirtyDescIndex (n + segs.length) i := hout
    show (fillDescs cmd opts2 p true segs d.hw.txNextDescIndex _).txMbuf i = none
    rw [hr.acct.next_eq, (fillDescs_outside true hout).1]
    apply hr.clean i
    rintro ⟨l, hl, he⟩
    exact hout ⟨l, by omega, he⟩
  last := placePacket_markedLast hr.last
  once := by
    have hempty : ∀ l < segs.length, d.txMbuf (slot kNumTxDesc d.hw.txDirtyDescIndex (n + l)) = none := by
      intro l hl
      apply hr.clean
      rintro ⟨q, hq, he⟩
      have := slot_inj (by omega) (by omega) he
      omega
    have hheld : (held kNumTxDesc (placePacket cmd opts2 p segs d).txMbuf).Perm
        (p :: held kNumTxDesc d.txMbuf) := by
      rw [placePacket_frame, hr.acct.next_eq]
      exact fillDescs_held true hsegs (by omega) hempty
    have htrace : (placePacket cmd opts2 p segs d).trace = d.trace := by
      rw [placePacket_frame]
    rw [htrace]
    exact (hr.once.cons p).trans (List.perm_middle.symm.trans (hheld.symm.append_left _))

/-- **A round of `outputStart`.** -/
theorem RingInv.output (hr : RingInv cfg.mcfg d taken n j) (vtd : Bool) (hroom : HasRoom d)
    (hcursor : o.cursor.length ≤ kMaxSegs) :
    ∃ n', RingInv cfg.mcfg (outputPacket cfg vtd o d) (o.pkt.id :: taken) n' j := by
  rcases outputPacket_cases cfg vtd d hcursor with
    ⟨d', hk, heq⟩ | ⟨d', segs, cmd, opts2, hk, hsegs, hlen, -, heq⟩
  · rw [heq]
    exact ⟨n, (hr.congr hk).free _⟩
  · rw [heq]
    exact ⟨n + segs.length, (hr.congr hk).place hsegs (hr.acct.fits hroom hlen) _ _ _⟩

/-- The round leaves what is not yet closed alone. -/
theorem RingInv.output_unclosed (hr : RingInv cfg.mcfg d taken n j) (vtd : Bool) (hroom : HasRoom d)
    (hcursor : o.cursor.length ≤ kMaxSegs) (hi : i < kNumTxDesc) (hopen : Unclosed cfg.mcfg d.hw i) :
    (outputPacket cfg vtd o d).txDesc i = d.txDesc i ∧
    (outputPacket cfg vtd o d).txMbuf i = d.txMbuf i := by
  rcases outputPacket_cases cfg vtd d hcursor with
    ⟨d', hk, heq⟩ | ⟨d', segs, cmd, opts2, hk, hsegs, hlen, -, heq⟩
  · rw [heq]
    exact ⟨congrFun hk.txDesc i, congrFun hk.txMbuf i⟩
  · have hout := hr.acct.next_closed (hr.acct.fits hroom hlen) hi hopen
    rw [← hk.hw] at hout
    rw [heq, ← hk.txDesc, ← hk.txMbuf]
    exact placePacket_outside ((hr.congr hk).acct.next_lt) hsegs hout

/-- The round puts an mbuf at `lastIndex` only. -/
theorem RingInv.output_txMbuf (hr : RingInv cfg.mcfg d taken n j) (vtd : Bool)
    (hcursor : o.cursor.length ≤ kMaxSegs) (hi : (outputPacket cfg vtd o d).txMbuf i ≠ none) :
    d.txMbuf i ≠ none ∨ lastIndex cfg vtd o d = some i := by
  rcases outputPacket_cases cfg vtd d hcursor with
    ⟨d', hk, heq⟩ | ⟨d', segs, cmd, opts2, hk, hsegs, hlen, hlast, heq⟩
  · rw [heq] at hi
    exact Or.inl (by rw [← hk.txMbuf]; exact hi)
  · have hnext := (hr.congr hk).acct.next_lt
    rw [heq, placePacket_frame, ← slot_zero hnext] at hi
    rcases fillDescs_txMbuf true hi with hold | hnew
    · exact Or.inl (by rw [← hk.txMbuf]; exact hold)
    · rw [hlast, hnew, hk.hw, Nat.zero_add]
      exact Or.inr rfl

/-- **`txInterrupt` reads the close pointer.** -/
theorem RingInv.readClose (hr : RingInv cfg.mcfg d taken n j) {reg : ℕ}
    (hlegal : LegalClose cfg.mcfg d.hw reg) :
    RingInv cfg.mcfg (readClose cfg reg d) taken n (numDone cfg reg d + j) where
  acct := by
    rw [numDone, sub32_and_maxTxDescPtrMask]
    exact hr.acct.retiring hlegal
  clean := hr.clean
  last := hr.last
  once := hr.once

/-- What a round of `txInterrupt` does to the ring. -/
theorem retireDesc_ring (vtd : Bool) (d : TxSide) :
    (retireDesc vtd d).hw = { d.hw with
      txNumFreeDesc := d.hw.txNumFreeDesc + 1
      txDirtyDescIndex := (d.hw.txDirtyDescIndex + 1) &&& kTxDescMask } ∧
    (retireDesc vtd d).txDesc = d.txDesc ∧
    (retireDesc vtd d).txMbuf = Function.update d.txMbuf d.hw.txDirtyDescIndex none ∧
    frees (retireDesc vtd d).trace = (d.txMbuf d.hw.txDirtyDescIndex).toList ++ frees d.trace := by
  cases hmbuf : d.txMbuf d.hw.txDirtyDescIndex with
  | none =>
      rw [update_none_self hmbuf]
      simp only [retireDesc, hmbuf]
      exact ⟨trivial, trivial, trivial, rfl⟩
  | some p =>
      simp only [retireDesc, hmbuf]
      cases vtd <;> exact ⟨rfl, rfl, rfl, rfl⟩

/-- A slot is emptied and its mbuf freed. -/
theorem RingInv.once_clear (hr : RingInv m d taken n j) (i : ℕ) :
    taken.Perm (((d.txMbuf i).toList ++ frees d.trace) ++
      held kNumTxDesc (Function.update d.txMbuf i none)) := by
  cases hi : d.txMbuf i with
  | none =>
      rw [update_none_self hi]
      exact hr.once
  | some p =>
      have hlt : i < kNumTxDesc := hr.mbuf_lt (by rw [hi]; exact Option.some_ne_none p)
      exact hr.once.trans (((held_take hlt hi).append_left _).trans List.perm_middle)

/-- **A descriptor is retired.** -/
theorem RingInv.retire (hr : RingInv m d taken (n + 1) (j + 1)) (vtd : Bool) :
    RingInv m (retireDesc vtd d) taken n j := by
  obtain ⟨hhw, hdesc, hmbuf, hfrees⟩ := retireDesc_ring vtd d
  refine ⟨?_, ?_, ?_, ?_⟩
  · rw [hhw]
    exact hr.acct.retire
  · rw [hhw, hmbuf]
    intro i hout
    by_cases hid : i = d.hw.txDirtyDescIndex
    · rw [hid, Function.update_self]
    · rw [Function.update_of_ne hid]
      apply hr.clean i
      rw [inWindow_succ_iff hr.acct.dirty_lt, not_or]
      refine ⟨fun he => hid he.symm, ?_⟩
      rw [and_kTxDescMask] at hout
      exact hout
  · intro i p hp
    rw [hmbuf] at hp
    rw [hdesc]
    by_cases hid : i = d.hw.txDirtyDescIndex
    · rw [hid, Function.update_self] at hp
      cases hp
    · rw [Function.update_of_ne hid] at hp
      exact hr.last i p hp
  · rw [hfrees, hmbuf]
    exact hr.once_clear _

/-- **`clearRxTxRings` comes to a slot.** -/
theorem RingInv.clearDesc (hr : RingInv m d taken n j) (i : ℕ) :
    RingInv m (clearDesc i d) taken n j := by
  rw [clearDesc_eq]
  refine ⟨hr.acct, ?_, ?_, ?_⟩
  · intro l hout
    show Function.update d.txMbuf i none l = none
    by_cases hli : l = i
    · rw [hli, Function.update_self]
    · rw [Function.update_of_ne hli]
      exact hr.clean l hout
  · intro l p (hp : Function.update d.txMbuf i none l = some p)
    show (Function.update d.txDesc i (clearWord i (d.txDesc i)) l).opts1 &&& lastFrag ≠ 0
    by_cases hli : l = i
    · rw [hli, Function.update_self] at hp
      cases hp
    · rw [Function.update_of_ne hli] at hp ⊢
      exact hr.last l p hp
  · have hfrees : frees ((d.txMbuf i).toList.map .free ++ d.trace) =
        (d.txMbuf i).toList ++ frees d.trace := by
      cases d.txMbuf i <;> rfl
    show taken.Perm (frees ((d.txMbuf i).toList.map .free ++ d.trace) ++ _)
    rw [hfrees]
    exact hr.once_clear i

/-- **The counters are restarted** on an empty ring. -/
theorem RingInv.restart (hr : RingInv m d taken n j) (hempty : ∀ i, d.txMbuf i = none) :
    RingInv m (rtl812xHwConfig d) taken 0 0 where
  acct := RingAcct.restart m
  clean := fun i _ => hempty i
  last := hr.last
  once := hr.once

theorem RingInv.init (m : Mcfg) : RingInv m TxSide.init [] 0 0 where
  acct := RingAcct.restart m
  clean := fun _ _ => rfl
  last := by
    intro i p hp
    cases hp
  once := by
    have hheld : held kNumTxDesc TxSide.init.txMbuf = [] := held_eq_nil fun _ _ => rfl
    rw [hheld]
    exact .refl _

end Rules

end Rtl812x.Kext.TxRing
