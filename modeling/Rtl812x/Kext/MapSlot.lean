import Rtl812x.Kext.Tx

/-!
# A slot of the transmit map, call by call

A slot is a memory descriptor and a DMA command.  `txMapPacket` sets the descriptor up, prepares it, binds
the command to it and tags it active; `txUnmapPacket` undoes this in turn, and `clearRxTxRings` and
`freeTxMap` go through the slots that are tagged.  Here every call is made one by one, with a record of
those that find the slot in the wrong state: `complete` without an outstanding `prepare`,
`initWithOptions` or `setMemoryDescriptor` while the command is bound.

* `MapSlot.map`, `MapSlot.unmap`, `MapSlot.clear`, `MapSlot.free` — the calls of the four functions, with
  each error exit of the first;
* `MapSlot.Idle` / `MapSlot.mapped` — a slot without a packet and one with;
* `MapSlot.Idle.map_consistent_iff` — **mapping a packet goes well exactly if** the slot is not bound and
  `gen64IOVMSegments` does not fail.
-/

namespace Rtl812x.Kext

/-! ### Calls on a slot -/

inductive Fault where
  | completeUnprepared | initBound | setBound
deriving DecidableEq, Repr

/-- Whether there is a memory descriptor, its outstanding `prepare` calls, whether the DMA command is
bound to it, its tag, and the calls that went wrong. -/
structure MapSlot where
  md : Bool
  prepared : ℕ
  bound : Bool
  active : Bool
  faults : List Fault
deriving DecidableEq, Repr

namespace MapSlot

def empty : MapSlot := ⟨false, 0, false, false, []⟩

/-- A slot with a packet mapped. -/
def mapped : MapSlot := ⟨true, 1, true, true, []⟩

def initWithOptions (t : MapSlot) : MapSlot :=
  if t.bound then { t with faults := .initBound :: t.faults } else t

def prepare (t : MapSlot) : MapSlot := { t with prepared := t.prepared + 1 }

def complete (t : MapSlot) : MapSlot :=
  if t.prepared = 0 then { t with faults := .completeUnprepared :: t.faults }
  else { t with prepared := t.prepared - 1 }

/-- `setMemoryDescriptor`, which may fail. -/
def setMemoryDescriptor (ok : Bool) (t : MapSlot) : MapSlot :=
  if t.bound then { t with faults := .setBound :: t.faults } else { t with bound := ok }

def clearMemoryDescriptor (t : MapSlot) : MapSlot := { t with bound := false }

def setTag (active : Bool) (t : MapSlot) : MapSlot := { t with active := active }

/-- The descriptor is set up for a packet: an old one by `initWithOptions`, a new one by `withOptions`. -/
def setUp (t : MapSlot) : MapSlot := if t.md then t.initWithOptions else t

/-- The calls of `txMapPacket` for a packet of `n` segments, and whether they succeed. -/
def map (n : ℕ) (r : TxMapResult) (t : MapSlot) : Bool × MapSlot :=
  match r with
  | .initFails => (false, t.setUp)
  | .prepareFails => (false, { t.setUp with md := true })
  | .setFails => (false, ({ t.setUp with md := true }.prepare.setMemoryDescriptor false).complete)
  | .segs iova =>
      let t' := ({ t.setUp with md := true }.prepare.setMemoryDescriptor true).setTag true
      if (List.range n).all fun i => (iova i).isSome then (true, t')
      else (false, t'.clearMemoryDescriptor.complete)

/-- The calls of `txUnmapPacket`. -/
def unmap (t : MapSlot) : MapSlot := t.clearMemoryDescriptor.complete.setTag false

/-- The calls of `clearRxTxRings`. -/
def clear (t : MapSlot) : MapSlot := if t.md && t.active then t.complete.setTag false else t

/-- The calls of `freeTxMap`; the descriptor and the command are gone afterwards. -/
def free (t : MapSlot) : MapSlot :=
  let t' := t.clearMemoryDescriptor
  { (if t'.md && t'.active then t'.complete else t') with md := false, active := false }

/-- The tag says whether the descriptor is prepared and bound, and no call went wrong. -/
def Consistent (t : MapSlot) : Prop :=
  (t.active = true ↔ t.prepared = 1 ∧ t.bound = true) ∧ t.faults = []

instance : DecidablePred Consistent := fun t =>
  inferInstanceAs (Decidable ((t.active = true ↔ t.prepared = 1 ∧ t.bound = true) ∧ t.faults = []))

/-- A slot without a packet; the command may still be bound. -/
structure Idle (t : MapSlot) : Prop where
  prepared : t.prepared = 0
  active : t.active = false
  faults : t.faults = []
  bound_md : t.bound = true → t.md = true

theorem Idle.consistent {t : MapSlot} (ht : t.Idle) : t.Consistent := by
  refine ⟨⟨fun h => ?_, fun h => ?_⟩, ht.faults⟩
  · rw [ht.active] at h
    cases h
  · rw [ht.prepared] at h
    cases h.1

theorem mapped_consistent : mapped.Consistent := by decide

/-- The DMA command of an idle slot was left bound. -/
def LeftBound (t : MapSlot) : Prop := t.bound = true ∧ t.active = false

instance : DecidablePred LeftBound := fun t =>
  inferInstanceAs (Decidable (t.bound = true ∧ t.active = false))

/-- No call of `gen64IOVMSegments` fails. -/
def Gen64Ok (n : ℕ) : TxMapResult → Prop
  | .segs iova => ((List.range n).all fun i => (iova i).isSome) = true
  | .initFails | .prepareFails | .setFails => True

instance (n : ℕ) : DecidablePred (Gen64Ok n)
  | .segs iova => inferInstanceAs (Decidable (((List.range n).all fun i => (iova i).isSome) = true))
  | .initFails | .prepareFails | .setFails => isTrue trivial

section Map

variable {t : MapSlot} {n : ℕ} {r : TxMapResult}

/-- An idle slot that is not bound, as far as calls go. -/
theorem Idle.eq (ht : t.Idle) (hb : t.bound = false) : t = ⟨t.md, 0, false, false, []⟩ :=
  calc t = ⟨t.md, t.prepared, t.bound, t.active, t.faults⟩ := rfl
    _ = _ := by rw [ht.prepared, hb, ht.active, ht.faults]

/-- **Mapping a packet on a free slot** leaves it mapped or idle. -/
theorem Idle.map (ht : t.Idle) (hb : t.bound = false) (hr : Gen64Ok n r) :
    t.map n r = (true, mapped) ∨ ∃ t', t.map n r = (false, t') ∧ t'.Idle := by
  have hidle : ∀ md, Idle ⟨md, 0, false, false, []⟩ := fun md => ⟨rfl, rfl, rfl, fun h => by cases h⟩
  rw [ht.eq hb]
  cases r with
  | initFails => cases t.md <;> exact Or.inr ⟨_, rfl, hidle _⟩
  | prepareFails => cases t.md <;> exact Or.inr ⟨_, rfl, hidle _⟩
  | setFails => cases t.md <;> exact Or.inr ⟨_, rfl, hidle _⟩
  | segs iova =>
      refine Or.inl ?_
      simp only [MapSlot.map, if_pos (show _ = true from hr)]
      cases t.md <;> rfl

/-- Calls only add to the record. -/
theorem faults_complete (h : t.faults ≠ []) : t.complete.faults ≠ [] := by
  rw [complete]
  split
  · exact List.cons_ne_nil _ _
  · exact h

theorem faults_setMemoryDescriptor (ok : Bool) (h : t.faults ≠ []) :
    (t.setMemoryDescriptor ok).faults ≠ [] := by
  rw [setMemoryDescriptor]
  split
  · exact List.cons_ne_nil _ _
  · exact h

/-- **Mapping a packet on a bound slot goes wrong.** -/
theorem map_bound (hmd : t.md = true) (hb : t.bound = true) (n : ℕ) (r : TxMapResult) :
    (t.map n r).2.faults ≠ [] := by
  have hsetUp : t.setUp.faults ≠ [] := by
    rw [setUp, if_pos hmd, initWithOptions, if_pos hb]
    exact List.cons_ne_nil _ _
  cases r with
  | initFails => exact hsetUp
  | prepareFails => exact hsetUp
  | setFails => exact faults_complete (faults_setMemoryDescriptor false hsetUp)
  | segs iova =>
      rw [MapSlot.map]
      split
      · exact faults_setMemoryDescriptor true hsetUp
      · exact faults_complete (faults_setMemoryDescriptor true hsetUp)

/-- **A failure of `gen64IOVMSegments` leaves the tag.** -/
theorem Idle.map_gen64 (ht : t.Idle) (hb : t.bound = false) (hr : ¬ Gen64Ok n r) :
    ¬ (t.map n r).2.Consistent := by
  cases r with
  | segs iova =>
      rw [ht.eq hb]
      simp only [MapSlot.map, if_neg (show ¬ _ = true from hr)]
      cases t.md <;> decide
  | _ => exact absurd trivial hr

/-- Mapping a packet on an idle slot goes well exactly if the slot is not bound and
`gen64IOVMSegments` does not fail. -/
theorem Idle.map_consistent_iff (ht : t.Idle) :
    (t.map n r).2.Consistent ↔ ¬ t.LeftBound ∧ Gen64Ok n r := by
  by_cases hb : t.bound = true
  · have hleft : t.LeftBound := ⟨hb, ht.active⟩
    constructor
    · intro hcons
      exact absurd hcons.2 (map_bound (ht.bound_md hb) hb n r)
    · intro h
      exact absurd hleft h.1
  · rw [Bool.not_eq_true] at hb
    have hnot : ¬ t.LeftBound := fun h => Bool.false_ne_true (hb.symm.trans h.1)
    constructor
    · intro hcons
      refine ⟨hnot, ?_⟩
      by_contra hr
      exact ht.map_gen64 hb hr hcons
    · rintro ⟨-, hr⟩
      rcases ht.map hb hr with h | ⟨t', h, ht'⟩
      · rw [h]
        exact mapped_consistent
      · rw [h]
        exact ht'.consistent

end Map

/-- Taking a mapped slot down leaves it idle, with the command bound after `clearRxTxRings`. -/
theorem mapped_unmap_idle : mapped.unmap.Idle := ⟨rfl, rfl, rfl, fun h => by cases h⟩

theorem mapped_clear_idle : mapped.clear.Idle := ⟨rfl, rfl, rfl, fun _ => rfl⟩

theorem Idle.clear {t : MapSlot} (ht : t.Idle) : t.clear = t := by
  rw [MapSlot.clear, ht.active, Bool.and_false]
  rfl

theorem mapped_free_consistent : mapped.free.Consistent := by decide

theorem Idle.free_consistent {t : MapSlot} (ht : t.Idle) : t.free.Consistent := by
  have hfree : t.free = ⟨false, 0, false, false, []⟩ := by
    simp only [MapSlot.free, clearMemoryDescriptor, ht.active, Bool.and_false, if_false, ht.prepared,
      ht.faults, Bool.false_eq_true]
  rw [hfree]
  decide

end MapSlot

end Rtl812x.Kext
