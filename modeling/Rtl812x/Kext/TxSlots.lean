import Rtl812x.Kext.MapSlot
import Rtl812x.Kext.TxMapping
import Rtl812x.Lib.Runs

/-!
# The slots of the transmit map

The 512 slots of the map are taken and taken down in turn, each with the calls of `MapSlot`.

* `TxMap.Live` — the slots in use are mapped, the others idle; one rule for each function
  (`Live.map`, `Live.unmap`, `Live.clear`);
* `Live.agrees_map`, `Live.agrees_unmap`, `Live.agrees_clear` — **the slots of `Kext.Tx` are these** with
  the calls left out;
* `txSlots_consistent_iff` — **the slots stay consistent exactly if** `gen64IOVMSegments` never fails and
  no slot is taken that a `clearRxTxRings` has left bound;
* `cleared_slot_reused` — a slot taken again after `clearRxTxRings`.
-/

namespace Rtl812x.Kext

open Circular Runs

/-! ### The map -/

/-- The transmit map; `alive` says that it has not been freed. -/
structure TxMap where
  txNextMem2Use : ℕ
  txNextMem2Free : ℕ
  txNumFreeMem : ℤ
  slot : ℕ → MapSlot
  alive : Bool

namespace TxMap

/-- A packet of `n` segments gets to the calls. -/
def Maps (n : ℕ) (s : TxMap) : Prop := n ≤ kMaxSegs ∧ 1 < s.txNumFreeMem

instance (n : ℕ) (s : TxMap) : Decidable (s.Maps n) := inferInstanceAs (Decidable (_ ∧ _))

def txMapPacket (n : ℕ) (r : TxMapResult) (s : TxMap) : TxMap :=
  if s.Maps n then
    let m := (s.slot s.txNextMem2Use).map n r
    let s' := { s with slot := Function.update s.slot s.txNextMem2Use m.2 }
    -- on an error the slot is given back
    if m.1 then { s' with
      txNumFreeMem := s.txNumFreeMem - 1
      txNextMem2Use := (s.txNextMem2Use + 1) &&& kTxMemDescMask }
    else s'
  else s

def txUnmapPacket (s : TxMap) : TxMap :=
  { s with
    slot := Function.update s.slot s.txNextMem2Free (s.slot s.txNextMem2Free).unmap
    txNextMem2Free := (s.txNextMem2Free + 1) &&& kTxMemDescMask
    txNumFreeMem := s.txNumFreeMem + 1 }

def clearRxTxRings (s : TxMap) : TxMap :=
  { s with
    slot := fun i => if i < kNumTxMemDesc then (s.slot i).clear else s.slot i
    txNextMem2Use := 0
    txNextMem2Free := 0
    txNumFreeMem := kNumTxMemDesc }

def freeTxMap (s : TxMap) : TxMap :=
  if s.alive then { s with
    slot := fun i => if i < kNumTxMemDesc then (s.slot i).free else s.slot i
    alive := false }
  else s

/-- After `setupTxMap`. -/
def init : TxMap := ⟨0, 0, kNumTxMemDesc, fun _ => .empty, true⟩

/-- The slots in use are mapped, the others idle. -/
structure Live (s : TxMap) (k : ℕ) : Prop where
  free_lt : s.txNextMem2Free < kNumTxMemDesc
  use_eq : s.txNextMem2Use = Circular.slot kNumTxMemDesc s.txNextMem2Free k
  num_eq : s.txNumFreeMem = (kNumTxMemDesc : ℤ) - k
  room : k < kNumTxMemDesc
  used : ∀ i < kNumTxMemDesc, InWindow kNumTxMemDesc s.txNextMem2Free k i → s.slot i = .mapped
  unused : ∀ i < kNumTxMemDesc, ¬ InWindow kNumTxMemDesc s.txNextMem2Free k i → (s.slot i).Idle

/-- Every slot is consistent. -/
def Consistent (s : TxMap) : Prop := ∀ i < kNumTxMemDesc, (s.slot i).Consistent

section Live

variable {s : TxMap} {k n : ℕ} {r : TxMapResult}

theorem Live.consistent (hl : Live s k) : s.Consistent := by
  intro i hi
  by_cases hin : InWindow kNumTxMemDesc s.txNextMem2Free k i
  · rw [hl.used i hi hin]
    exact MapSlot.mapped_consistent
  · exact (hl.unused i hi hin).consistent

theorem Live.init : Live init 0 where
  free_lt := by decide
  use_eq := rfl
  num_eq := rfl
  room := by decide
  used := fun _ _ h => absurd h not_inWindow_zero
  unused := fun _ _ _ => ⟨rfl, rfl, rfl, fun h => by cases h⟩

theorem Live.use_lt (hl : Live s k) : s.txNextMem2Use < kNumTxMemDesc := by
  rw [hl.use_eq]
  exact slot_lt (by decide) _ _

/-- The slot taken next is idle. -/
theorem Live.next_idle (hl : Live s k) : (s.slot s.txNextMem2Use).Idle := by
  refine hl.unused _ hl.use_lt ?_
  rw [hl.use_eq]
  exact not_inWindow_next hl.room

/-- The slot taken next is given back. -/
theorem Live.givenBack (hl : Live s k) {t : MapSlot} (ht : t.Idle) :
    Live { s with slot := Function.update s.slot s.txNextMem2Use t } k := by
  refine ⟨hl.free_lt, hl.use_eq, hl.num_eq, hl.room, ?_, ?_⟩
  · intro i hi hin
    have hne : i ≠ s.txNextMem2Use := by
      rintro rfl
      rw [hl.use_eq] at hin
      exact not_inWindow_next hl.room hin
    show Function.update s.slot s.txNextMem2Use t i = _
    rw [Function.update_of_ne hne]
    exact hl.used i hi hin
  · intro i hi hout
    show (Function.update s.slot s.txNextMem2Use t i).Idle
    by_cases hiu : i = s.txNextMem2Use
    · rw [hiu, Function.update_self]
      exact ht
    · rw [Function.update_of_ne hiu]
      exact hl.unused i hi hout

/-- The slot taken next is mapped. -/
theorem Live.taken (hl : Live s k) (hroom : k + 1 < kNumTxMemDesc) :
    Live { s with
      slot := Function.update s.slot s.txNextMem2Use .mapped
      txNumFreeMem := s.txNumFreeMem - 1
      txNextMem2Use := (s.txNextMem2Use + 1) &&& kTxMemDescMask } (k + 1) := by
  refine ⟨hl.free_lt, ?_, ?_, hroom, ?_, ?_⟩
  · show (s.txNextMem2Use + 1) &&& kTxMemDescMask = _
    rw [and_kTxMemDescMask, hl.use_eq]
    exact slot_slot _ _ _ _
  · show s.txNumFreeMem - 1 = _
    rw [hl.num_eq]
    omega
  · intro i hi hin
    show Function.update s.slot s.txNextMem2Use _ i = _
    by_cases hiu : i = s.txNextMem2Use
    · rw [hiu, Function.update_self]
    · rw [Function.update_of_ne hiu]
      refine hl.used i hi ((inWindow_snoc_iff.mp hin).resolve_right ?_)
      rw [← hl.use_eq]
      exact fun he => hiu he.symm
  · intro i hi hout
    rw [inWindow_snoc_iff, not_or] at hout
    show (Function.update s.slot s.txNextMem2Use _ i).Idle
    rw [hl.use_eq, Function.update_of_ne fun he => hout.2 he.symm]
    exact hl.unused i hi hout.1

/-- **The oldest slot is taken down.** -/
theorem Live.unmap (hl : Live s (k + 1)) : Live s.txUnmapPacket k := by
  have hk : k < kNumTxMemDesc := by
    have := hl.room
    omega
  have hnext : s.txUnmapPacket.txNextMem2Free = Circular.slot kNumTxMemDesc s.txNextMem2Free 1 :=
    and_kTxMemDescMask _
  refine ⟨?_, ?_, ?_, hk, ?_, ?_⟩
  · rw [hnext]
    exact slot_lt (by decide) _ _
  · rw [hnext, slot_slot, Nat.add_comm 1 k]
    exact hl.use_eq
  · show s.txNumFreeMem + 1 = _
    rw [hl.num_eq]
    omega
  · intro i hi hin
    rw [hnext] at hin
    have hne : i ≠ s.txNextMem2Free := by
      rintro rfl
      exact first_not_inWindow hl.free_lt hk hin
    show Function.update s.slot s.txNextMem2Free _ i = _
    rw [Function.update_of_ne hne]
    exact hl.used i hi ((inWindow_succ_iff hl.free_lt).mpr (Or.inr hin))
  · intro i hi hout
    rw [hnext] at hout
    show (Function.update s.slot s.txNextMem2Free _ i).Idle
    by_cases hif : i = s.txNextMem2Free
    · rw [hif, Function.update_self,
        hl.used _ hl.free_lt ((inWindow_succ_iff hl.free_lt).mpr (Or.inl rfl))]
      exact MapSlot.mapped_unmap_idle
    · rw [Function.update_of_ne hif]
      refine hl.unused i hi fun hin => ?_
      exact ((inWindow_succ_iff hl.free_lt).mp hin).elim (fun he => hif he.symm) hout

/-- **`clearRxTxRings`** leaves every slot idle. -/
theorem Live.clear (hl : Live s k) : Live s.clearRxTxRings 0 := by
  refine ⟨(by decide : 0 < kNumTxMemDesc), rfl, rfl, by decide, fun _ _ h => absurd h not_inWindow_zero, ?_⟩
  intro i hi _
  show (if i < kNumTxMemDesc then (s.slot i).clear else s.slot i).Idle
  rw [if_pos hi]
  by_cases hin : InWindow kNumTxMemDesc s.txNextMem2Free k i
  · rw [hl.used i hi hin]
    exact MapSlot.mapped_clear_idle
  · rw [(hl.unused i hi hin).clear]
    exact hl.unused i hi hin

theorem Live.free_consistent (hl : Live s k) : s.freeTxMap.Consistent := by
  rw [freeTxMap]
  split
  case isFalse => exact hl.consistent
  case isTrue =>
    intro i hi
    show (if i < kNumTxMemDesc then (s.slot i).free else s.slot i).Consistent
    rw [if_pos hi]
    by_cases hin : InWindow kNumTxMemDesc s.txNextMem2Free k i
    · rw [hl.used i hi hin]
      exact MapSlot.mapped_free_consistent
    · exact (hl.unused i hi hin).free_consistent

/-- Mapping a packet, with no slot left bound and no failure of `gen64IOVMSegments`. -/
theorem Live.map (hl : Live s k)
    (hkept : s.Maps n → ¬ (s.slot s.txNextMem2Use).LeftBound ∧ MapSlot.Gen64Ok n r) :
    ∃ k', Live (s.txMapPacket n r) k' := by
  rw [txMapPacket]
  split
  case isFalse => exact ⟨k, hl⟩
  case isTrue hmaps =>
    obtain ⟨hleft, hr⟩ := hkept hmaps
    have hidle := hl.next_idle
    have hb : (s.slot s.txNextMem2Use).bound = false := by
      rw [← Bool.not_eq_true]
      exact fun hb => hleft ⟨hb, hidle.active⟩
    rcases hidle.map hb hr with h | ⟨t', h, ht'⟩
    · have hroom : k + 1 < kNumTxMemDesc := by
        have := hl.num_eq
        have := hmaps.2
        omega
      simp only [h, if_true]
      exact ⟨k + 1, hl.taken hroom⟩
    · simp only [h, if_false, Bool.false_eq_true]
      exact ⟨k, hl.givenBack ht'⟩

/-- The slot of the packet after the calls. -/
theorem txMapPacket_slot (hmaps : s.Maps n) :
    (s.txMapPacket n r).slot s.txNextMem2Use = ((s.slot s.txNextMem2Use).map n r).2 := by
  rw [txMapPacket, if_pos hmaps]
  simp only
  split <;> exact Function.update_self ..

/-- **`txMapPacket` keeps the slots consistent** exactly if the next slot was not left bound and
`gen64IOVMSegments` does not fail. -/
theorem Live.map_consistent_iff (hl : Live s k) : (s.txMapPacket n r).Consistent ↔
    (s.Maps n → ¬ (s.slot s.txNextMem2Use).LeftBound ∧ MapSlot.Gen64Ok n r) := by
  constructor
  · intro hcons hmaps
    have hslot := hcons _ hl.use_lt
    rw [txMapPacket_slot hmaps] at hslot
    exact hl.next_idle.map_consistent_iff.mp hslot
  · intro hkept
    obtain ⟨k', hl'⟩ := hl.map hkept
    exact hl'.consistent

end Live

/-! ### The slots of the transmit side -/

/-- A slot as `Kext.Tx` has it. -/
structure SlotAgrees (t : MapSlot) (m : TxMem) : Prop where
  md : m.md = t.md
  bound : m.bound = t.bound
  active : m.active = t.active
  wired : m.wired.isSome = true ↔ t.prepared ≠ 0

structure Agrees (s : TxMap) (d : TxSide) : Prop where
  use : d.txNextMem2Use = s.txNextMem2Use
  free : d.txNextMem2Free = s.txNextMem2Free
  num : d.txNumFreeMem = s.txNumFreeMem
  slot : ∀ i, SlotAgrees (s.slot i) (d.txMem i)

section Agrees

variable {s : TxMap} {d : TxSide} {k : ℕ}

theorem unwired_iff : (none : Option ℕ).isSome = true ↔ (0 : ℕ) ≠ 0 := by simp

/-- What the calls of `txMapPacket` make of a slot of `Kext.Tx`. -/
def mappedMem (pkt n : ℕ) (r : TxMapResult) (m : TxMem) : TxMem :=
  match r with
  | .initFails => m
  | .prepareFails | .setFails => { m with md := true, wired := none }
  | .segs iova =>
      if (List.range n).all fun i => (iova i).isSome then ⟨true, some pkt, true, true⟩
      else ⟨true, none, false, true⟩

theorem SlotAgrees.map {t : MapSlot} {m : TxMem} (h : SlotAgrees t m) (ht : t.Idle) (pkt n : ℕ)
    (r : TxMapResult) : SlotAgrees (t.map n r).2 (mappedMem pkt n r m) := by
  have hcases : (∃ md, t = ⟨md, 0, false, false, []⟩) ∨ t = ⟨true, 0, true, false, []⟩ := by
    by_cases hb : t.bound = true
    · right
      calc t = ⟨t.md, t.prepared, t.bound, t.active, t.faults⟩ := rfl
        _ = _ := by rw [ht.prepared, ht.active, ht.faults, hb, ht.bound_md hb]
    · rw [Bool.not_eq_true] at hb
      exact Or.inl ⟨t.md, ht.eq hb⟩
  have hsome : (some pkt).isSome = true ↔ (1 : ℕ) ≠ 0 := by simp
  rcases hcases with ⟨_ | _, rfl⟩ | rfl
  all_goals
    cases r with
    | initFails => exact ⟨h.md, h.bound, h.active, h.wired⟩
    | prepareFails => exact ⟨rfl, h.bound, h.active, unwired_iff⟩
    | setFails => exact ⟨rfl, h.bound, h.active, unwired_iff⟩
    | segs iova =>
        simp only [MapSlot.map, mappedMem]
        split
        · exact ⟨rfl, rfl, rfl, hsome⟩
        · exact ⟨rfl, rfl, rfl, unwired_iff⟩

theorem Agrees.update (ha : Agrees s d) {t : MapSlot} {m : TxMem} (ht : SlotAgrees t m) (i j : ℕ) :
    SlotAgrees (Function.update s.slot i t j) (Function.update d.txMem i m j) := by
  by_cases hj : j = i
  · rw [hj, Function.update_self, Function.update_self]
    exact ht
  · rw [Function.update_of_ne hj, Function.update_of_ne hj]
    exact ha.slot j

/-- **`txMapPacket`**, with the calls and without. -/
theorem Live.agrees_map (hl : Live s k) (ha : Agrees s d) (cfg : TxConfig) (p : TxPacket) (r : TxMapResult)
    (vector : ℕ → Segment) :
    Agrees (s.txMapPacket (virtualSegments cfg.pageSize p.chain).length r)
      (Kext.txMapPacket cfg p kMaxSegs r vector d).2.2 := by
  generalize hsegs : virtualSegments cfg.pageSize p.chain = segs
  by_cases hmaps : s.Maps segs.length
  · have hslot := (ha.slot s.txNextMem2Use).map hl.next_idle p.id segs.length r
    have hupdate := ha.update hslot s.txNextMem2Use
    have hback : d.txNumFreeMem - 1 + 1 = s.txNumFreeMem := by
      rw [ha.num]
      omega
    have hnum : 1 < d.txNumFreeMem := by
      rw [ha.num]
      exact hmaps.2
    rw [txMapPacket, if_pos hmaps, Kext.txMapPacket, hsegs, if_neg (Nat.not_lt.mpr hmaps.1), if_pos hnum,
      ha.use]
    cases r with
    | initFails =>
        refine ⟨rfl, ha.free, hback, fun j => ?_⟩
        have hj := hupdate j
        rw [mappedMem, Function.update_eq_self] at hj
        exact hj
    | prepareFails => exact ⟨rfl, ha.free, hback, hupdate⟩
    | setFails => exact ⟨rfl, ha.free, hback, hupdate⟩
    | segs iova =>
        simp only [mappedMem] at hupdate
        simp only [MapSlot.map, txMapSlot] at hupdate ⊢
        split at hupdate
        case isTrue hall =>
          simp only [if_pos hall, if_true]
          refine ⟨?_, ha.free, ?_, hupdate⟩
          · show (d.txNextMem2Use + 1) &&& kTxMemDescMask = _
            rw [ha.use]
          · show d.txNumFreeMem - 1 = _
            rw [ha.num]
        case isFalse hall =>
          simp only [if_neg hall, if_false, Bool.false_eq_true]
          exact ⟨rfl, ha.free, hback, hupdate⟩
  · have hsame : (Kext.txMapPacket cfg p kMaxSegs r vector d).2.2 = d := by
      rw [Kext.txMapPacket, hsegs]
      by_cases hlen : kMaxSegs < segs.length
      · rw [if_pos hlen]
      · rw [if_neg hlen, if_neg]
        rw [ha.num]
        exact fun hnum => hmaps ⟨Nat.not_lt.mp hlen, hnum⟩
    rw [hsame, txMapPacket, if_neg hmaps]
    exact ha

theorem Live.agrees_unmap (hl : Live s (k + 1)) (ha : Agrees s d) (pkt : ℕ) :
    Agrees s.txUnmapPacket (Kext.txUnmapPacket pkt d) := by
  have hused := hl.used _ hl.free_lt ((inWindow_succ_iff hl.free_lt).mpr (Or.inl rfl))
  have hslot : SlotAgrees (s.slot s.txNextMem2Free).unmap
      { d.txMem s.txNextMem2Free with wired := none, bound := false, active := false } := by
    have hmd := (ha.slot s.txNextMem2Free).md
    rw [hused] at hmd ⊢
    exact ⟨hmd, rfl, rfl, unwired_iff⟩
  refine ⟨ha.use, ?_, ?_, fun j => ?_⟩
  · show (d.txNextMem2Free + 1) &&& kTxMemDescMask = (s.txNextMem2Free + 1) &&& kTxMemDescMask
    rw [ha.free]
  · show d.txNumFreeMem + 1 = s.txNumFreeMem + 1
    rw [ha.num]
  · show SlotAgrees (Function.update s.slot s.txNextMem2Free _ j) (Function.update d.txMem d.txNextMem2Free
      { d.txMem d.txNextMem2Free with wired := none, bound := false, active := false } j)
    rw [ha.free]
    exact ha.update hslot _ j

theorem Live.agrees_clear (hl : Live s k) (ha : Agrees s d) :
    Agrees s.clearRxTxRings (Kext.clearRxTxRings d) := by
  refine ⟨rfl, rfl, rfl, fun i => ?_⟩
  show SlotAgrees (if i < kNumTxMemDesc then (s.slot i).clear else s.slot i)
    (if i < kNumTxMemDesc then clearMem (d.txMem i) else d.txMem i)
  have hi := ha.slot i
  by_cases hlt : i < kNumTxMemDesc
  · rw [if_pos hlt, if_pos hlt]
    by_cases hin : InWindow kNumTxMemDesc s.txNextMem2Free k i
    · rw [hl.used i hlt hin] at hi ⊢
      rw [clearMem, hi.md, hi.active]
      exact ⟨rfl, hi.bound, rfl, unwired_iff⟩
    · have hidle := hl.unused i hlt hin
      rw [hidle.clear, clearMem, hi.active, hidle.active, Bool.and_false]
      exact hi
  · rw [if_neg hlt, if_neg hlt]
    exact hi

end Agrees

end TxMap

/-! ### Runs -/

open TxMap

inductive SlotOp where
  /-- a packet of `n` segments -/
  | map (n : ℕ) (r : TxMapResult)
  | unmap
  | clear
  | free

def slotStep (s : TxMap) : SlotOp → TxMap
  | .map n r => s.txMapPacket n r
  | .unmap => s.txUnmapPacket
  | .clear => s.clearRxTxRings
  | .free => s.freeTxMap

/-- The map is not used after `freeTxMap`, and `txUnmapPacket` is called for a packet that is mapped. -/
def SlotLegal (s : TxMap) : SlotOp → Prop
  | .map _ _ | .clear => s.alive = true
  | .unmap => s.alive = true ∧ s.txNumFreeMem < kNumTxMemDesc
  | .free => True

instance (s : TxMap) : DecidablePred (SlotLegal s)
  | .map _ _ | .clear => inferInstanceAs (Decidable (s.alive = true))
  | .unmap => inferInstanceAs (Decidable (s.alive = true ∧ s.txNumFreeMem < kNumTxMemDesc))
  | .free => isTrue trivial

/-- A packet that gets to the calls finds a slot that was not left bound, and `gen64IOVMSegments` does
not fail. -/
def SlotKept (s : TxMap) : SlotOp → Prop
  | .map n r => s.Maps n → ¬ (s.slot s.txNextMem2Use).LeftBound ∧ MapSlot.Gen64Ok n r
  | .unmap | .clear | .free => True

structure SlotInv (s : TxMap) : Prop where
  consistent : s.Consistent
  live : s.alive = true → ∃ k, Live s k

section Runs

variable {s : TxMap} {op : SlotOp}

theorem SlotInv.step (hs : SlotInv s) (hlegal : SlotLegal s op) (hkept : SlotKept s op) :
    SlotInv (slotStep s op) := by
  have hof : ∀ {s' : TxMap} {k : ℕ}, Live s' k → SlotInv s' := fun h => ⟨h.consistent, fun _ => ⟨_, h⟩⟩
  cases op with
  | map n r =>
      obtain ⟨k, hl⟩ := hs.live hlegal
      obtain ⟨k', hl'⟩ := hl.map hkept
      exact hof hl'
  | unmap =>
      obtain ⟨k, hl⟩ := hs.live hlegal.1
      obtain _ | k := k
      · have := hl.num_eq
        have := hlegal.2
        omega
      · exact hof hl.unmap
  | clear =>
      obtain ⟨k, hl⟩ := hs.live hlegal
      exact hof hl.clear
  | free =>
      by_cases halive : s.alive = true
      · obtain ⟨k, hl⟩ := hs.live halive
        refine ⟨hl.free_consistent, fun h => ?_⟩
        simp only [slotStep, freeTxMap, if_pos halive] at h
        cases h
      · have hsame : slotStep s .free = s := if_neg halive
        rw [hsame]
        exact hs

theorem SlotInv.consistent_iff (hs : SlotInv s) (hlegal : SlotLegal s op) :
    (slotStep s op).Consistent ↔ SlotKept s op := by
  cases op with
  | map n r =>
      obtain ⟨k, hl⟩ := hs.live hlegal
      exact hl.map_consistent_iff
  | _ => exact ⟨fun _ => trivial, fun h => (hs.step hlegal h).consistent⟩

end Runs

/-- **The slots of the transmit map stay consistent** in a run exactly if no packet is mapped on a slot
that `clearRxTxRings` has left bound, and `gen64IOVMSegments` does not fail. -/
theorem txSlots_consistent_iff (ops : List SlotOp) :
    Along slotStep (fun s op => SlotLegal s op ∧ (slotStep s op).Consistent) TxMap.init ops ↔
    Along slotStep (fun s op => SlotLegal s op ∧ SlotKept s op) TxMap.init ops := by
  have hinit : SlotInv TxMap.init := ⟨Live.init.consistent, fun _ => ⟨0, Live.init⟩⟩
  refine along_congr (fun s op hs => and_congr_right fun hlegal => hs.consistent_iff hlegal) ?_ hinit
  exact fun s op hs h => hs.step h.1 ((hs.consistent_iff h.1).mp h.2)

/-- One packet is mapped, the rings are cleared, and the next packet takes the same slot. -/
def clearedSlot : List SlotOp :=
  [.map 1 (.segs fun _ => some 0x10000), .clear, .map 1 (.segs fun _ => some 0x10000)]

/-- **A slot taken again after `clearRxTxRings`**: its command is still bound when the descriptor is set
up and when it is bound again. -/
theorem cleared_slot_reused :
    Along slotStep SlotLegal TxMap.init clearedSlot ∧
    ((exec slotStep TxMap.init clearedSlot).slot 0).faults = [.setBound, .initBound] ∧
    ¬ (exec slotStep TxMap.init clearedSlot).Consistent := by
  have hfaults : ((exec slotStep TxMap.init clearedSlot).slot 0).faults = [.setBound, .initBound] := by
    decide +kernel
  refine ⟨by decide +kernel, hfaults, fun hcons => ?_⟩
  have := (hcons 0 (by decide)).2
  rw [hfaults] at this
  cases this

end Rtl812x.Kext
