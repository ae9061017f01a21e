import Mathlib.Data.List.Count
import Mathlib.Data.List.Nodup
import Mathlib.Data.List.Perm.Basic
import Mathlib.Data.List.Range
import Mathlib.Logic.Function.Basic

/-!
# Items held in an array of slots

An array of `n` slots, each empty or holding an item, is a function `f : ℕ → Option α`; `held n f`
lists the items by slot.  Putting an item into an empty slot adds it (`held_put`), emptying a slot
removes it (`held_take`), up to the order of the list; a slot that is not looked at first may lose an
item (`held_overwrite`, `held_update_none_subperm`).  A loop over the slots that has come to `n` has
changed those below `n` (`update_below`), a recursion that is left at `n` those from its start on
(`update_before`).

Items that get consecutive numbers as they are created are in one place each if the list of what all
places hold has no number twice and none that is not taken yet (`Numbered`).  Moving items permutes
that list (`Numbered.perm`); creating one adds the next number to it (`Numbered.create`).
-/

namespace Slots

variable {α : Type*} {f g : ℕ → Option α} {i n : ℕ} {a : α} {l : List ℕ}

/-- The items of the first `n` slots. -/
def held (n : ℕ) (f : ℕ → Option α) : List α := (List.range n).filterMap f

theorem filterMap_put (hl : l.Nodup) (hi : i ∈ l) (hf : f i = none) (a : α) :
    (l.filterMap (Function.update f i (some a))).Perm (a :: l.filterMap f) := by
  induction l with
  | nil => cases hi
  | cons j l ih =>
      rw [List.nodup_cons] at hl
      by_cases hij : j = i
      · subst hij
        have hrest : l.filterMap (Function.update f j (some a)) = l.filterMap f := by
          apply List.filterMap_congr
          intro k hk
          rw [Function.update_of_ne]
          rintro rfl
          exact hl.1 hk
        rw [List.filterMap_cons_some (by rw [Function.update_self]), List.filterMap_cons_none hf,
          hrest]
      · have hmem : i ∈ l := (List.mem_cons.mp hi).resolve_left (Ne.symm hij)
        have hj : Function.update f i (some a) j = f j := Function.update_of_ne hij _ _
        cases hfj : f j with
        | none =>
            rw [List.filterMap_cons_none (hj.trans hfj), List.filterMap_cons_none hfj]
            exact ih hl.2 hmem
        | some b =>
            rw [List.filterMap_cons_some (hj.trans hfj), List.filterMap_cons_some hfj]
            exact ((ih hl.2 hmem).cons b).trans (.swap _ _ _)

/-- **Putting an item into an empty slot.** -/
theorem held_put (hi : i < n) (hf : f i = none) (a : α) :
    (held n (Function.update f i (some a))).Perm (a :: held n f) :=
  filterMap_put List.nodup_range (List.mem_range.mpr hi) hf a

/-- **Emptying a slot.** -/
theorem held_take (hi : i < n) (hf : f i = some a) :
    (held n f).Perm (a :: held n (Function.update f i none)) := by
  have hput := held_put (f := Function.update f i none) hi (Function.update_self ..) a
  rwa [Function.update_idem, ← hf, Function.update_eq_self] at hput

/-- Writing a slot, whatever was in it. -/
theorem held_overwrite (hi : i < n) (f : ℕ → Option α) (a : α) :
    (held n (Function.update f i (some a))).Perm (a :: held n (Function.update f i none)) := by
  have hput := held_put (f := Function.update f i none) hi (Function.update_self ..) a
  rwa [Function.update_idem] at hput

/-- There is nothing to empty. -/
theorem update_none_self (hf : f i = none) : Function.update f i none = f := by
  rw [← hf, Function.update_eq_self]

/-- Emptying a slot adds nothing. -/
theorem held_update_none_subperm (hi : i < n) (f : ℕ → Option α) :
    (held n (Function.update f i none)).Subperm (held n f) := by
  cases hf : f i with
  | none => rw [update_none_self hf]
  | some a => exact ((List.sublist_cons_self _ _).subperm).trans (held_take hi hf).symm.subperm

/-- An array without items. -/
theorem held_eq_nil (h : ∀ i < n, f i = none) : held n f = [] := by
  rw [held, List.filterMap_eq_nil_iff]
  exact fun i hi => h i (List.mem_range.mp hi)

/-- The loop goes on by one slot. -/
theorem update_below {β : Type*} (f g : ℕ → β) (n : ℕ) :
    Function.update (fun i => if i < n then g i else f i) n (g n) =
      fun i => if i < n + 1 then g i else f i := by
  funext i
  rcases Nat.lt_trichotomy i n with h | rfl | h
  · rw [Function.update_of_ne h.ne, if_pos h, if_pos (by omega)]
  · rw [Function.update_self, if_pos (Nat.lt_succ_self i)]
  · rw [Function.update_of_ne h.ne', if_neg (by omega), if_neg (by omega)]

/-- The slot before a stretch joins it. -/
theorem update_before {β : Type*} {g g' : ℕ → β} {x : β} (a m : ℕ) (hx : x = g a)
    (hg : ∀ i, a + 1 ≤ i → g' i = g i) (f : ℕ → β) :
    (fun i => if a + 1 ≤ i ∧ i < a + 1 + m then g' i else Function.update f a x i) =
      fun i => if a ≤ i ∧ i < a + (m + 1) then g i else f i := by
  funext i
  by_cases hi : i = a
  · subst hi
    rw [if_neg (by omega), Function.update_self, if_pos (by omega), hx]
  · rw [Function.update_of_ne hi]
    by_cases hin : a + 1 ≤ i ∧ i < a + 1 + m
    · rw [if_pos hin, if_pos (by omega), hg i hin.1]
    · rw [if_neg hin, if_neg (by omega)]

/-! ### Numbered items -/

section Numbered

variable {l' : List ℕ}

/-- The items `l` are distinct and among the `n` first ones. -/
structure Numbered (n : ℕ) (l : List ℕ) : Prop where
  nodup : l.Nodup
  lt : ∀ x ∈ l, x < n

theorem Numbered.nil (n : ℕ) : Numbered n [] := ⟨List.nodup_nil, nofun⟩

/-- Items are moved. -/
theorem Numbered.perm (h : Numbered n l) (hperm : l.Perm l') : Numbered n l' :=
  ⟨hperm.nodup_iff.mp h.nodup, fun x hx => h.lt x (hperm.mem_iff.mpr hx)⟩

/-- No item is created. -/
theorem Numbered.mono {n' : ℕ} (h : Numbered n l) (hn : n ≤ n') : Numbered n' l :=
  ⟨h.nodup, fun x hx => Nat.lt_of_lt_of_le (h.lt x hx) hn⟩

/-- **The next item is created**, in some place. -/
theorem Numbered.create (h : Numbered n l) (hperm : (n :: l).Perm l') : Numbered (n + 1) l' := by
  have hcons : Numbered (n + 1) (n :: l) := by
    refine ⟨List.nodup_cons.mpr ⟨fun hn => Nat.lt_irrefl n (h.lt n hn), h.nodup⟩, ?_⟩
    intro x hx
    rcases List.mem_cons.mp hx with rfl | hx
    · exact Nat.lt_succ_self _
    · exact Nat.lt_succ_of_lt (h.lt x hx)
  exact hcons.perm hperm

/-- What is in one place is in no other. -/
theorem Numbered.count_le_one (h : Numbered n l) (x : ℕ) : l.count x ≤ 1 :=
  List.nodup_iff_count_le_one.mp h.nodup x

end Numbered

end Slots
