import Rtl812x.Kext.TxMapping
import Rtl812x.Lib.Runs

/-!
# The transmit map in step with the transmit ring

`txUnmapPacket` takes no argument: it takes down the oldest slot of the map, whatever mbuf the
caller is about to free.  Nothing but the order of the calls ties the slots to the mbufs.

* `InStep` — **the slots in use belong, in order, to the mbufs on the ring**, and every
  `txUnmapPacket` so far took down the mapping of the mbuf freed after it;
* `Matched` — the same for `n` descriptors in flight and `k` slots in use; each call keeps it
  (`Matched.place`, `Matched.retire`, `Matched.clear`);
* `txMapping_in_step` — it holds in every run in which `txMapPacket` finds more than one free slot
  and the link comes up only on an empty ring;
* `linkUp_leaves_mapping` — a second link-up reading with a packet in flight.
-/

namespace Rtl812x.Kext

open Circular WrapCounter Runs

variable {cfg : TxConfig} {s s' : TxSide} {n k : ℕ}

/-! ### The invariant -/

/-- The map and the ring, with `n` descriptors in flight and `k` slots in use. -/
structure Matched (s : TxSide) (n k : ℕ) : Prop where
  map : MapAcct s k
  order : s.mapped k = (s.onRing n).reduceOption.map some
  clean : ∀ i < kNumTxDesc, ¬ InWindow kNumTxDesc s.hw.txDirtyDescIndex n i → s.txMbuf i = none
  unmaps : ∀ i w p, TxEvent.unmap i w p ∈ s.trace → w = some p

/-- What leaves both rings alone keeps them matched. -/
theorem Matched.congr (hm : Matched s n k)
    (hdirty : s'.hw.txDirtyDescIndex = s.hw.txDirtyDescIndex) (hmbuf : s'.txMbuf = s.txMbuf)
    (hmap : MapAcct s' k) (hmapped : s'.mapped k = s.mapped k)
    (htrace : ∀ i w p, TxEvent.unmap i w p ∈ s'.trace → TxEvent.unmap i w p ∈ s.trace) :
    Matched s' n k where
  map := hmap
  order := by
    rw [hmapped, hm.order, TxSide.onRing, TxSide.onRing, hdirty, hmbuf]
  clean := by
    rw [hdirty, hmbuf]
    exact hm.clean
  unmaps := fun i w p h => hm.unmaps i w p (htrace i w p h)

/-- Freeing a packet that is not on the ring. -/
theorem Matched.free (hm : Matched s n k) (pkt : ℕ) : Matched (freePacket pkt s) n k :=
  hm.congr rfl rfl (hm.map.congr rfl rfl rfl rfl) rfl (fun i w p h => by
    rcases List.mem_cons.mp h with h | h
    · cases h
    · exact h)

/-! ### Placing a packet -/

/-- The packet is last on the ring. -/
theorem placePacket_onRing {m : Mcfg} (ha : RingAcct m s.hw n 0) {segs : List Segment} (hsegs : segs ≠ [])
    (hfit : n + segs.length + 4 ≤ kNumTxDesc) (cmd opts2 : UInt32) (p : ℕ) :
    ((placePacket cmd opts2 p segs s).onRing (n + segs.length)).reduceOption =
      (s.onRing n).reduceOption ++ [p] := by
  rw [placePacket_frame, ha.next_eq]
  exact fillDescs_onRing true hsegs (by omega)

/-- **A mapped packet goes to the ring**: it is last in both orders. -/
theorem Matched.place (hm : Matched s n k) (ha : RingAcct cfg.mcfg s.hw n 0) {p : ℕ}
    {segs : List Segment} (hsegs : segs ≠ []) (hfit : n + segs.length + 4 ≤ kNumTxDesc)
    (hring : SameRing s s') (hmap : MapAcct s' (k + 1))
    (hmapped : s'.mapped (k + 1) = s.mapped k ++ [some p]) (cmd opts2 : UInt32) :
    RingAcct cfg.mcfg (placePacket cmd opts2 p segs s').hw (n + segs.length) 0 ∧
    Matched (placePacket cmd opts2 p segs s') (n + segs.length) (k + 1) := by
  rw [← hring.hw] at ha
  have hlast := placePacket_onRing ha hsegs hfit cmd opts2 p
  have hold : s'.onRing n = s.onRing n := by
    rw [TxSide.onRing, TxSide.onRing, hring.hw, hring.txMbuf]
  have hclean := hm.clean
  rw [← hring.hw, ← hring.txMbuf] at hclean
  rw [placePacket_frame] at hlast ⊢
  refine ⟨ha.place hfit, hmap.congr rfl rfl rfl rfl, ?_, ?_, ?_⟩
  · show s'.mapped (k + 1) = _
    rw [hmapped, hm.order, hlast, hold, List.map_append]
    rfl
  · intro i hi (hout : ¬ InWindow kNumTxDesc s'.hw.txDirtyDescIndex (n + segs.length) i)
    show (fillDescs cmd opts2 p true segs s'.hw.txNextDescIndex _).txMbuf i = none
    rw [ha.next_eq, (fillDescs_outside true hout).1]
    apply hclean i hi
    rintro ⟨j, hj, he⟩
    exact hout ⟨j, by omega, he⟩
  · show ∀ i w q, TxEvent.unmap i w q ∈ s'.trace → w = some q
    rw [hring.trace]
    exact hm.unmaps

/-- **One round of the loop of `outputStart`.** -/
theorem Matched.output {o : TxOffer} (hm : Matched s n k) (ha : RingAcct cfg.mcfg s.hw n 0)
    (hsegs : 1 ≤ (virtualSegments cfg.pageSize o.pkt.chain).length)
    (hroom : (kMaxSegs : ℤ) + 3 < s.hw.txNumFreeDesc → o.pkt.tsoError = false →
      (virtualSegments cfg.pageSize o.pkt.chain).length ≤ kMaxSegs → 1 < s.txNumFreeMem) :
    ∃ n' k', RingAcct cfg.mcfg (outputRound cfg o s).hw n' 0 ∧ Matched (outputRound cfg o s) n' k' := by
  rw [outputRound]
  split
  case isFalse => exact ⟨n, k, ha, hm⟩
  case isTrue hfree =>
    rw [outputPacket]
    split
    case isTrue => exact ⟨n, k, ha, hm.free _⟩
    case isFalse htso =>
      rw [Bool.not_eq_true] at htso
      obtain ⟨hring, ⟨hzero, hmap, hkept⟩ | ⟨hlen, hmax, hmap, hmapped⟩⟩ :=
        txMapPacket_spec (hroom hfree htso) o.result o.vector hm.map
      · rw [if_pos hzero]
        refine ⟨n, k, ?_, Matched.free (hm.congr ?_ hring.txMbuf hmap hkept ?_) _⟩
        · show RingAcct cfg.mcfg (txMapPacket cfg o.pkt kMaxSegs o.result o.vector s).2.2.hw n 0
          rw [hring.hw]
          exact ha
        · rw [hring.hw]
        · rw [hring.trace]
          exact fun _ _ _ h => h
      · rw [if_neg (by omega), hlen]
        have hlength : ((List.range (virtualSegments cfg.pageSize o.pkt.chain).length).map
            (txMapPacket cfg o.pkt kMaxSegs o.result o.vector s).2.1).length =
            (virtualSegments cfg.pageSize o.pkt.chain).length := by
          rw [List.length_map, List.length_range]
        refine ⟨_, _, hm.place ha ?_ ?_ hring hmap hmapped _ _⟩
        · apply List.ne_nil_of_length_pos
          omega
        · rw [hlength]
          exact ha.fits hfree hmax

/-! ### Retiring descriptors -/

theorem retireDesc_hw (s : TxSide) : (retireDesc s).hw = { s.hw with
    txNumFreeDesc := s.hw.txNumFreeDesc + 1
    txDirtyDescIndex := (s.hw.txDirtyDescIndex + 1) &&& kTxDescMask } := by
  simp only [retireDesc]
  split <;> rfl

theorem retireDesc_dirty (s : TxSide) :
    (retireDesc s).hw.txDirtyDescIndex = slot kNumTxDesc s.hw.txDirtyDescIndex 1 := by
  rw [retireDesc_hw]
  exact and_kTxDescMask _

/-- The retired descriptor carries no mbuf afterwards. -/
theorem retireDesc_txMbuf (s : TxSide) :
    (retireDesc s).txMbuf = Function.update s.txMbuf s.hw.txDirtyDescIndex none := by
  cases hmbuf : s.txMbuf s.hw.txDirtyDescIndex with
  | none =>
      simp only [retireDesc, hmbuf]
      rw [← hmbuf, Function.update_eq_self]
  | some p =>
      simp only [retireDesc, hmbuf]
      rfl

/-- The retired descriptor is the oldest one. -/
theorem retireDesc_onRing (hdirty : s.hw.txDirtyDescIndex < kNumTxDesc) (hn : n < kNumTxDesc) :
    s.onRing (n + 1) = s.txMbuf s.hw.txDirtyDescIndex :: (retireDesc s).onRing n := by
  rw [TxSide.onRing, TxSide.onRing, retireDesc_dirty, retireDesc_txMbuf,
    window_update_outside (first_not_inWindow hdirty hn)]
  exact window_cons hdirty n s.txMbuf

theorem Matched.retire_clean (hm : Matched s (n + 1) k) (hdirty : s.hw.txDirtyDescIndex < kNumTxDesc)
    (i : ℕ) (hi : i < kNumTxDesc)
    (hout : ¬ InWindow kNumTxDesc (retireDesc s).hw.txDirtyDescIndex n i) :
    (retireDesc s).txMbuf i = none := by
  rw [retireDesc_dirty] at hout
  rw [retireDesc_txMbuf]
  by_cases hid : i = s.hw.txDirtyDescIndex
  · rw [hid, Function.update_self]
  · rw [Function.update_of_ne hid]
    apply hm.clean i hi
    rw [inWindow_succ_iff hdirty, not_or]
    exact ⟨fun he => hid he.symm, hout⟩

/-- **One descriptor is retired**: an mbuf it carries is the oldest on the ring, and the slot taken
down is its own. -/
theorem Matched.retire {j : ℕ} (hm : Matched s (n + 1) k)
    (hr : RingAcct cfg.mcfg s.hw (n + 1) (j + 1)) :
    ∃ k', RingAcct cfg.mcfg (retireDesc s).hw n j ∧ Matched (retireDesc s) n k' := by
  have hn : n < kNumTxDesc := by
    have := hr.room
    omega
  have hacct : RingAcct cfg.mcfg (retireDesc s).hw n j := by
    rw [retireDesc_hw]
    exact hr.retire
  have hclean := hm.retire_clean hr.dirty_lt
  have horder := hm.order
  rw [retireDesc_onRing hr.dirty_lt hn] at horder
  cases hmbuf : s.txMbuf s.hw.txDirtyDescIndex with
  | none =>
      rw [hmbuf, List.reduceOption_cons_of_none] at horder
      refine ⟨k, hacct, ?_, ?_, hclean, ?_⟩
      · simp only [retireDesc, hmbuf]
        exact hm.map.congr rfl rfl rfl rfl
      · rw [← horder]
        simp only [retireDesc, hmbuf]
        rfl
      · simp only [retireDesc, hmbuf]
        exact hm.unmaps
  | some p =>
      rw [hmbuf, List.reduceOption_cons_of_some, List.map_cons] at horder
      obtain _ | k := k
      · exact absurd horder (List.cons_ne_nil _ _).symm
      have hmap : MapAcct { s with
          txMbuf := Function.update s.txMbuf s.hw.txDirtyDescIndex none } (k + 1) :=
        hm.map.congr rfl rfl rfl rfl
      obtain ⟨hmap', hcons⟩ := hmap.unmap p
      -- the slot taken down is the first of the map, and so prepared for `p`
      obtain ⟨hwired, hrest⟩ := List.cons.inj (horder.symm.trans hcons)
      refine ⟨k, hacct, ?_, ?_, hclean, ?_⟩
      · simp only [retireDesc, hmbuf]
        exact hmap'.congr rfl rfl rfl rfl
      · rw [hrest]
        simp only [retireDesc, hmbuf]
        rfl
      · simp only [retireDesc, hmbuf]
        intro i w q hmem
        rcases List.mem_cons.mp hmem with h | hmem
        · cases h
        · rcases List.mem_cons.mp hmem with h | hmem
          · cases h
            exact hwired.symm
          · exact hm.unmaps i w q hmem

/-- All the descriptors the chip has closed are retired. -/
theorem Matched.retireAll {j : ℕ} (hm : Matched s n k) (hr : RingAcct cfg.mcfg s.hw n j) :
    ∃ n' k', RingAcct cfg.mcfg (retireDesc^[j] s).hw n' 0 ∧ Matched (retireDesc^[j] s) n' k' := by
  induction j generalizing s n k with
  | zero => exact ⟨n, k, hr, hm⟩
  | succ j ih =>
      obtain _ | n := n
      · have := hr.lag_eq
        omega
      · obtain ⟨k', hr', hm'⟩ := hm.retire hr
        exact ih hm' hr'

theorem Matched.interrupt (hm : Matched s n k) (ha : RingAcct cfg.mcfg s.hw n 0) {reg : ℕ}
    (hlegal : LegalClose cfg.mcfg s.hw reg) :
    ∃ n' k', RingAcct cfg.mcfg (txInterrupt cfg reg s).hw n' 0 ∧ Matched (txInterrupt cfg reg s) n' k' := by
  have hm' : Matched { s with hw := { s.hw with
      txClosePtr0 := rtl812xGetHwCloPtr (hwSuppTxNoCloseVer cfg.mcfg) reg } } n k :=
    hm.congr rfl rfl (hm.map.congr rfl rfl rfl rfl) rfl (fun _ _ _ h => h)
  simp only [txInterrupt, sub32_and_maxTxDescPtrMask]
  exact hm'.retireAll (ha.retiring hlegal)

/-! ### Restarts -/

/-- **`clearRxTxRings`** leaves nothing mapped: every slot in use carries the tag. -/
theorem Matched.clear (hm : Matched s n k) : Matched (clearRxTxRings s) 0 0 := by
  have hwired : ∀ i < kNumTxMemDesc, (clearRxTxRings s).wired i = none := by
    intro i hi
    show (if i < kNumTxMemDesc then clearMem (s.txMem i) else s.txMem i).wired = none
    rw [if_pos hi, clearMem]
    by_cases hsome : (s.wired i).isSome = true
    · obtain ⟨hmd, hactive⟩ := hm.map.active i hi hsome
      rw [hmd, hactive]
      rfl
    · rw [Option.not_isSome_iff_eq_none] at hsome
      split
      · rfl
      · exact hsome
  refine ⟨⟨(by decide : 0 < kNumTxMemDesc), rfl, rfl, by decide, ?_, fun i hi _ => hwired i hi, ?_⟩,
    rfl, ?_, ?_⟩
  · intro o ho
    cases ho
  · intro i hi hsome
    rw [hwired i hi] at hsome
    exact absurd hsome (by decide)
  · intro i hi _
    exact if_pos hi
  · intro i w p hmem
    rcases List.mem_append.mp hmem with hmem | hmem
    · rw [List.mem_reverse, List.mem_map] at hmem
      obtain ⟨q, -, hq⟩ := hmem
      cases hq
    · exact hm.unmaps i w p hmem

/-- The link comes up on an empty ring. -/
theorem Matched.hwConfig (hm : Matched s 0 k) : Matched (rtl812xHwConfig s) 0 k :=
  ⟨hm.map.congr rfl rfl rfl rfl, hm.order, fun i hi _ => hm.clean i hi not_inWindow_zero, hm.unmaps⟩

/-! ### Runs -/

/-- What happens to the transmit side: a round of the loop of `outputStart` and its end, the
transmit interrupt, `clearRxTxRings` and a reading of the link status. -/
inductive TxOp where
  | output (o : TxOffer)
  | doorbell
  | interrupt (reg : ℕ)
  | clear
  | link (status : UInt32)

def txStep (cfg : TxConfig) (s : TxSide) : TxOp → TxSide
  | .output o => if s.enabled && s.linkUp then outputRound cfg o s else s
  | .doorbell => if s.enabled && s.linkUp then txDoorbell cfg s else s
  | .interrupt reg => txInterrupt cfg reg s
  | .clear => clearRxTxRings s
  | .link status => rtl812xCheckLinkStatus status s

/-- What the callers and the chip promise: every packet has a segment, and the close pointer moves
within what has been placed. -/
def TxLegal (cfg : TxConfig) (s : TxSide) : TxOp → Prop
  | .output o => 1 ≤ (virtualSegments cfg.pageSize o.pkt.chain).length
  | .interrupt reg => LegalClose cfg.mcfg s.hw reg
  | _ => True

/-- The round takes the packet and has segments to map for it. -/
def Maps (cfg : TxConfig) (s : TxSide) (o : TxOffer) : Prop :=
  s.enabled = true ∧ s.linkUp = true ∧ (kMaxSegs : ℤ) + 3 < s.hw.txNumFreeDesc ∧
  o.pkt.tsoError = false ∧ (virtualSegments cfg.pageSize o.pkt.chain).length ≤ kMaxSegs

/-- A packet to map finds more than one free slot, and the link comes up on an empty ring. -/
def KeepsStep (cfg : TxConfig) (s : TxSide) : TxOp → Prop
  | .output o => Maps cfg s o → 1 < s.txNumFreeMem
  | .link status => phyLinkUp status = true → s.hw.txNumFreeDesc = kNumTxDesc
  | _ => True

/-- The invariant of the run. -/
def TxInv (cfg : TxConfig) (s : TxSide) : Prop :=
  ∃ n k, RingAcct cfg.mcfg s.hw n 0 ∧ Matched s n k

theorem TxInv.init (cfg : TxConfig) : TxInv cfg TxSide.init := by
  refine ⟨0, 0, RingAcct.restart _, ⟨by decide, rfl, rfl, by decide, ?_, fun _ _ _ => rfl, ?_⟩, rfl,
    fun _ _ _ => rfl, ?_⟩
  · intro o ho
    cases ho
  · intro i _ hsome
    cases hsome
  · intro i w p hmem
    cases hmem

theorem TxInv.clear (hi : TxInv cfg s) : TxInv cfg (clearRxTxRings s) := by
  obtain ⟨n, k, _, hm⟩ := hi
  exact ⟨0, 0, RingAcct.restart _, hm.clear⟩

/-- What neither ring depends on. -/
theorem TxInv.congr (hi : TxInv cfg s) (hhw : s'.hw = s.hw) (hmbuf : s'.txMbuf = s.txMbuf)
    (hfree : s'.txNextMem2Free = s.txNextMem2Free) (huse : s'.txNextMem2Use = s.txNextMem2Use)
    (hnum : s'.txNumFreeMem = s.txNumFreeMem) (hmem : s'.txMem = s.txMem)
    (htrace : ∀ i w p, TxEvent.unmap i w p ∈ s'.trace → TxEvent.unmap i w p ∈ s.trace) :
    TxInv cfg s' := by
  obtain ⟨n, k, ha, hm⟩ := hi
  refine ⟨n, k, by rwa [hhw], hm.congr (by rw [hhw]) hmbuf (hm.map.congr hfree huse hnum hmem) ?_ htrace⟩
  rw [TxSide.mapped, TxSide.mapped, hfree, show s'.wired = s.wired from
    funext fun i => congrArg (fun f => (f i).wired) hmem]

theorem TxInv.step (hi : TxInv cfg s) (op : TxOp) (hlegal : TxLegal cfg s op)
    (hkeeps : KeepsStep cfg s op) : TxInv cfg (txStep cfg s op) := by
  cases op with
  | output o =>
      obtain ⟨n, k, ha, hm⟩ := hi
      rw [txStep]
      split
      case isFalse => exact ⟨n, k, ha, hm⟩
      case isTrue hflags =>
        rw [Bool.and_eq_true] at hflags
        exact hm.output ha hlegal fun hfree htso hmax =>
          hkeeps ⟨hflags.1, hflags.2, hfree, htso, hmax⟩
  | doorbell =>
      rw [txStep]
      split
      case isFalse => exact hi
      case isTrue =>
        refine hi.congr rfl rfl rfl rfl rfl rfl fun i w p hmem => ?_
        rcases List.mem_cons.mp hmem with h | h
        · cases h
        · exact h
  | interrupt reg =>
      obtain ⟨n, k, ha, hm⟩ := hi
      exact hm.interrupt ha hlegal
  | clear => exact hi.clear
  | link status =>
      rw [txStep, rtl812xCheckLinkStatus]
      split
      case isTrue hup =>
        obtain ⟨n, k, ha, hm⟩ := hi
        have hn : n = 0 := by
          have := ha.free_eq
          have := hkeeps hup
          omega
        subst hn
        have hcfg : TxInv cfg (rtl812xHwConfig s) := ⟨0, k, RingAcct.restart _, hm.hwConfig⟩
        exact hcfg.congr rfl rfl rfl rfl rfl rfl fun _ _ _ h => h
      case isFalse =>
        have hdown : TxInv cfg { s with linkUp := false } :=
          hi.congr rfl rfl rfl rfl rfl rfl fun _ _ _ h => h
        exact hdown.clear.clear

/-- Mapping a packet leaves the flags alone. -/
theorem txMapSlot_flags (pkt m saveMem : ℕ) (r : TxMapResult) (s : TxSide) :
    (txMapSlot pkt m saveMem r s).2.enabled = s.enabled ∧
    (txMapSlot pkt m saveMem r s).2.linkUp = s.linkUp := by
  cases r with
  | segs iova =>
      rw [txMapSlot]
      split <;> exact ⟨rfl, rfl⟩
  | _ => exact ⟨rfl, rfl⟩

theorem txMapPacket_flags (p : TxPacket) (maxSegs : ℕ) (r : TxMapResult) (vector : ℕ → Segment) :
    (txMapPacket cfg p maxSegs r vector s).2.2.enabled = s.enabled ∧
    (txMapPacket cfg p maxSegs r vector s).2.2.linkUp = s.linkUp := by
  rw [txMapPacket]
  split
  case isTrue => exact ⟨rfl, rfl⟩
  case isFalse =>
    split
    case isFalse => exact ⟨rfl, rfl⟩
    case isTrue =>
      simp only
      split <;> exact txMapSlot_flags _ _ _ _ _

/-- A round of the loop leaves the flags alone. -/
theorem outputRound_flags (cfg : TxConfig) (o : TxOffer) (s : TxSide) :
    (outputRound cfg o s).enabled = s.enabled ∧ (outputRound cfg o s).linkUp = s.linkUp := by
  rw [outputRound]
  split
  case isFalse => exact ⟨rfl, rfl⟩
  case isTrue =>
    rw [outputPacket]
    split
    case isTrue => exact ⟨rfl, rfl⟩
    case isFalse =>
      simp only
      split
      case isTrue => exact txMapPacket_flags _ _ _ _
      case isFalse =>
        rw [placePacket_frame]
        exact txMapPacket_flags _ _ _ _

/-- **A call of `outputStart` is a run**: its rounds one after the other, and the doorbell. -/
theorem outputStart_eq_exec (cfg : TxConfig) (queue : List TxOffer) (s : TxSide) :
    outputStart cfg queue s = exec (txStep cfg) s (queue.map .output ++ [.doorbell]) := by
  induction queue generalizing s with
  | nil =>
      show outputStart cfg [] s = if s.enabled && s.linkUp then txDoorbell cfg s else s
      rfl
  | cons o rest ih =>
      show _ = exec (txStep cfg) (txStep cfg s (.output o)) (rest.map .output ++ [.doorbell])
      rw [← ih]
      by_cases hflags : (s.enabled && s.linkUp) = true
      · have hround := outputRound_flags cfg o s
        rw [txStep, if_pos hflags, outputStart, outputStart, if_pos hflags, hround.1, hround.2,
          if_pos hflags]
        rfl
      · rw [txStep, if_neg hflags, outputStart, outputStart, if_neg hflags, if_neg hflags]

/-- The slots from `txNextMem2Free` up to `txNextMem2Use`. -/
def TxSide.slotsInUse (s : TxSide) : ℕ := lapse kNumTxMemDesc s.txNextMem2Free s.txNextMem2Use

/-- The descriptors from `txDirtyDescIndex` up to `txNextDescIndex`. -/
def TxSide.inFlight (s : TxSide) : ℕ := lapse kNumTxDesc s.hw.txDirtyDescIndex s.hw.txNextDescIndex

/-- The map is in step with the ring. -/
structure InStep (s : TxSide) : Prop where
  /-- there are as many slots in use as are not free -/
  count : s.txNumFreeMem = (kNumTxMemDesc : ℤ) - s.slotsInUse
  /-- the prepared slots are those between the two indices -/
  interval : ∀ i < kNumTxMemDesc, (s.wired i).isSome = true ↔
    InWindow kNumTxMemDesc s.txNextMem2Free s.slotsInUse i
  /-- mbufs are between the two indices of the ring -/
  flight : ∀ i < kNumTxDesc, (s.txMbuf i).isSome = true →
    InWindow kNumTxDesc s.hw.txDirtyDescIndex s.inFlight i
  /-- slot by slot, the packet prepared is the next mbuf on the ring -/
  order : s.mapped s.slotsInUse = (s.onRing s.inFlight).reduceOption.map some
  /-- every mapping taken down was that of the mbuf freed after it -/
  unmaps : ∀ i w p, TxEvent.unmap i w p ∈ s.trace → w = some p

/-- A slot of the window is prepared, the others are not. -/
theorem MapAcct.interval (ha : MapAcct s k) {i : ℕ} (hi : i < kNumTxMemDesc) :
    (s.wired i).isSome = true ↔ InWindow kNumTxMemDesc s.txNextMem2Free k i := by
  constructor
  · intro hsome
    by_contra hout
    rw [ha.unused i hi hout] at hsome
    exact absurd hsome (by decide)
  · rintro ⟨j, hj, rfl⟩
    exact ha.used _ (List.mem_map_of_mem (List.mem_range.mpr hj))

theorem MapAcct.slotsInUse_eq (ha : MapAcct s k) : s.slotsInUse = k := by
  rw [TxSide.slotsInUse, ha.use_eq]
  exact lapse_slot ha.free_lt ha.room

theorem RingAcct.inFlight_eq {m : Mcfg} (ha : RingAcct m s.hw n 0) : s.inFlight = n := by
  rw [TxSide.inFlight, ha.next_eq]
  exact lapse_slot ha.dirty_lt (by have := ha.room; omega)

theorem TxInv.inStep (hi : TxInv cfg s) : InStep s := by
  obtain ⟨n, k, ha, hm⟩ := hi
  have hk := hm.map.slotsInUse_eq
  have hn := ha.inFlight_eq
  refine ⟨?_, ?_, ?_, ?_, hm.unmaps⟩
  · rw [hk]
    exact hm.map.num_eq
  · rw [hk]
    exact fun i hi => hm.map.interval hi
  · rw [hn]
    intro i hi hsome
    by_contra hout
    rw [hm.clean i hi hout] at hsome
    exact absurd hsome (by decide)
  · rw [hk, hn]
    exact hm.order

/-- A packet that finds no slot goes to the ring all the same, with what the segment array held
before, and **every later unmapping is that of another packet**. -/
theorem InStep.lost_without_slot {o : TxOffer} (hm : Matched s n k) (ha : RingAcct cfg.mcfg s.hw n 0)
    (hsegs : 1 ≤ (virtualSegments cfg.pageSize o.pkt.chain).length) (hmaps : Maps cfg s o)
    (hnone : s.txNumFreeMem ≤ 1) : ¬ InStep (txStep cfg s (.output o)) := by
  obtain ⟨henabled, hlink, hfree, htso, hmax⟩ := hmaps
  have hfit := ha.fits hfree hmax
  have hcall : txMapPacket cfg o.pkt kMaxSegs o.result o.vector s =
      ((virtualSegments cfg.pageSize o.pkt.chain).length, o.vector, s) := by
    rw [txMapPacket, if_neg (by omega), if_neg (by omega)]
  have hround : txStep cfg s (.output o) = placePacket (offloadWords cfg.mtu o.pkt).1
      ((offloadWords cfg.mtu o.pkt).2 ||| vlanWord o.pkt.vlanTag) o.pkt.id
      ((List.range (virtualSegments cfg.pageSize o.pkt.chain).length).map o.vector) s := by
    rw [txStep, henabled, hlink, Bool.and_self, if_pos rfl, outputRound, if_pos hfree, outputPacket,
      htso, if_neg Bool.false_ne_true, hcall]
    exact if_neg (by omega)
  generalize hsegs' : (List.range (virtualSegments cfg.pageSize o.pkt.chain).length).map o.vector = segs
    at hround
  have hlength : segs.length = (virtualSegments cfg.pageSize o.pkt.chain).length := by
    rw [← hsegs', List.length_map, List.length_range]
  rw [← hlength] at hfit hsegs
  intro h
  have horder := h.order
  rw [hround] at horder
  generalize hw2 : (offloadWords cfg.mtu o.pkt).2 ||| vlanWord o.pkt.vlanTag = opts2 at horder
  have hacct : RingAcct cfg.mcfg (placePacket (offloadWords cfg.mtu o.pkt).1 opts2 o.pkt.id segs s).hw
      (n + segs.length) 0 := by
    rw [placePacket_frame]
    exact ha.place hfit
  have hmap : MapAcct (placePacket (offloadWords cfg.mtu o.pkt).1 opts2 o.pkt.id segs s) k := by
    rw [placePacket_frame]
    exact hm.map.congr rfl rfl rfl rfl
  have hmapped : (placePacket (offloadWords cfg.mtu o.pkt).1 opts2 o.pkt.id segs s).mapped k =
      s.mapped k := by
    rw [placePacket_frame]
    rfl
  rw [hmap.slotsInUse_eq, hacct.inFlight_eq, hmapped, hm.order,
    placePacket_onRing ha (List.ne_nil_of_length_pos hsegs) hfit] at horder
  have hlen := congrArg List.length horder
  rw [List.length_map, List.length_map, List.length_append, List.length_singleton] at hlen
  omega

/-- **The map stays in step with the ring**, in every run in which a packet to map finds more than
one free slot and the link comes up on an empty ring only. -/
theorem txMapping_in_step (cfg : TxConfig) (ops : List TxOp)
    (hrun : Along (txStep cfg) (fun s op => TxLegal cfg s op ∧ KeepsStep cfg s op) TxSide.init ops) :
    InStep (exec (txStep cfg) TxSide.init ops) := by
  have hinv : TxInv cfg (exec (txStep cfg) TxSide.init ops) :=
    invariant_along (fun _ op hi hok => hi.step op hok.1 hok.2) (TxInv.init cfg) hrun
  exact hinv.inStep

/-- A chip of the first generation, pages of 4 KB. -/
def smallPages : TxConfig := ⟨.m2, 4096, 1500⟩

/-- Packet 7, of 60 bytes, which the mapper puts at `0x10000`. -/
def shortPacket : TxOffer :=
  ⟨⟨7, [(0x4000, 60)], 60, false, false, false, 0, 0, false, false, false, false, false, none⟩,
    .segs fun _ => some 0x10000, fun _ => ⟨0, 0⟩⟩

theorem shortPacket_segs :
    1 ≤ (virtualSegments smallPages.pageSize shortPacket.pkt.chain).length := by
  decide +kernel

/-- Packet 7 goes out, and its mapping is taken down before it is freed. -/
theorem txMapping_in_step_one_packet :
    InStep (exec (txStep smallPages) TxSide.init
      [.link phyLinkStatus, .output shortPacket, .doorbell, .interrupt 1]) ∧
    (exec (txStep smallPages) TxSide.init
      [.link phyLinkStatus, .output shortPacket, .doorbell, .interrupt 1]).trace =
      [.free 7, .unmap 0 (some 7) 7, .doorbell 1] := by
  refine ⟨txMapping_in_step smallPages _ ⟨⟨trivial, fun _ => rfl⟩, ⟨shortPacket_segs, fun _ => ?_⟩,
    ⟨trivial, trivial⟩, ⟨⟨1, ?_, ?_⟩, trivial⟩, trivial⟩, ?_⟩
  all_goals decide +kernel

/-- Link up once more with packet 7 on its way: the ring is empty, slot 0 stays in use. -/
theorem linkUp_leaves_mapping :
    Along (txStep smallPages) (TxLegal smallPages) TxSide.init
      [.link phyLinkStatus, .output shortPacket, .link phyLinkStatus] ∧
    ¬ InStep (exec (txStep smallPages) TxSide.init
      [.link phyLinkStatus, .output shortPacket, .link phyLinkStatus]) := by
  refine ⟨⟨trivial, shortPacket_segs, trivial, trivial⟩, fun h => ?_⟩
  exact absurd h.order (by decide +kernel)

end Rtl812x.Kext
