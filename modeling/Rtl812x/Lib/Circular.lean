import Mathlib.Data.List.Basic
import Mathlib.Data.List.Range
import Mathlib.Logic.Function.Basic
import Mathlib.Data.Nat.ModEq

/-!
# Windows of a circular buffer

A circular buffer of `N` slots is a function `f : ℕ → β` of which only the indices below `N` are
used.  What a ring holds at a moment is a **window**: `n` consecutive slots from an index `a`,
wrapping at `N`.

* `slot N a k` — the slot `k` places after `a`; `slot_inj` — within one lap slots do not repeat;
* `window N a n f` — the contents of the window as a list, with the two ways a ring changes it:
  `window_update_next` writes one more slot at its end, `window_cons` reads the slot at its start;
* `lapse N a b` — how many slots lie from `a` up to (not including) `b`.
-/

namespace Circular

variable {β : Type*} {N a b i j k m n : ℕ} {f : ℕ → β} {x : β}

/-! ### Slots -/

/-- The slot `k` places after `a` in a ring of `N` slots. -/
def slot (N a k : ℕ) : ℕ := (a + k) % N

theorem slot_lt (hN : 0 < N) (a k : ℕ) : slot N a k < N := Nat.mod_lt _ hN

theorem slot_zero (ha : a < N) : slot N a 0 = a := Nat.mod_eq_of_lt ha

theorem slot_slot (N a j k : ℕ) : slot N (slot N a j) k = slot N a (j + k) := by
  simp only [slot, Nat.mod_add_mod, Nat.add_assoc]

/-- Within one lap no slot repeats. -/
theorem slot_inj (hk : k < N) (hj : j < N) (h : slot N a k = slot N a j) : k = j := by
  have hmod : k ≡ j [MOD N] := Nat.ModEq.add_left_cancel' a h
  rwa [Nat.ModEq, Nat.mod_eq_of_lt hk, Nat.mod_eq_of_lt hj] at hmod

theorem slot_inj_left (ha : a < N) (hb : b < N) (h : slot N a k = slot N b k) : a = b := by
  have hmod : a ≡ b [MOD N] := Nat.ModEq.add_right_cancel' k h
  rwa [Nat.ModEq, Nat.mod_eq_of_lt ha, Nat.mod_eq_of_lt hb] at hmod

/-! ### The distance between two slots -/

/-- The number of slots from `a` up to, not including, `b`. -/
def lapse (N a b : ℕ) : ℕ := (b + (N - a)) % N

theorem lapse_lt (hN : 0 < N) (a b : ℕ) : lapse N a b < N := Nat.mod_lt _ hN

theorem slot_lapse (ha : a < N) (hb : b < N) : slot N a (lapse N a b) = b := by
  simp only [slot, lapse, Nat.add_mod_mod]
  rw [show a + (b + (N - a)) = b + N by omega, Nat.add_mod_right, Nat.mod_eq_of_lt hb]

theorem lapse_slot (ha : a < N) (hn : n < N) : lapse N a (slot N a n) = n :=
  slot_inj (lapse_lt (by omega) a _) hn (slot_lapse ha (slot_lt (by omega) a n))

/-! ### Windows -/

/-- The contents of the `n` slots from `a`, in ring order. -/
def window (N a n : ℕ) (f : ℕ → β) : List β := (List.range n).map fun k => f (slot N a k)

/-- Slot `i` is one of the `n` slots from `a`. -/
def InWindow (N a n i : ℕ) : Prop := ∃ k < n, slot N a k = i

instance (N a n i : ℕ) : Decidable (InWindow N a n i) :=
  inferInstanceAs (Decidable (∃ k < n, slot N a k = i))

theorem window_length (N a n : ℕ) (f : ℕ → β) : (window N a n f).length = n := by
  simp [window]

theorem window_snoc (N a n : ℕ) (f : ℕ → β) :
    window N a (n + 1) f = window N a n f ++ [f (slot N a n)] := by
  simp [window, List.range_succ]

theorem window_cons (ha : a < N) (n : ℕ) (f : ℕ → β) :
    window N a (n + 1) f = f a :: window N (slot N a 1) n f := by
  simp only [window, List.range_succ_eq_map, List.map_cons, List.map_map, slot_zero ha,
    List.cons.injEq, true_and]
  apply List.map_congr_left
  intro k _
  rw [Function.comp_apply, slot_slot, Nat.add_comm 1 k]

/-- Windows that agree slot by slot are equal lists. -/
theorem window_congr {g : ℕ → β} (h : ∀ k < n, f (slot N a k) = g (slot N a k)) :
    window N a n f = window N a n g := by
  apply List.map_congr_left
  intro k hk
  exact h k (List.mem_range.mp hk)

/-- Writing a slot outside the window does not change it. -/
theorem window_update_outside (h : ¬ InWindow N a n i) :
    window N a n (Function.update f i x) = window N a n f := by
  apply window_congr
  intro k hk
  exact Function.update_of_ne (fun he => h ⟨k, hk, he⟩) _ _

/-- The slot after a window that leaves room is outside it. -/
theorem not_inWindow_next (hn : n < N) : ¬ InWindow N a n (slot N a n) := by
  rintro ⟨k, hk, he⟩
  have := slot_inj (by omega) hn he
  omega

/-- **Writing the next slot appends to the window.** -/
theorem window_update_next (hn : n < N) (a : ℕ) (f : ℕ → β) (x : β) :
    window N a (n + 1) (Function.update f (slot N a n) x) = window N a n f ++ [x] := by
  rw [window_snoc, Function.update_self, window_update_outside (not_inWindow_next hn)]

/-- The slots after the first are those of the shorter window. -/
theorem inWindow_succ_iff (ha : a < N) :
    InWindow N a (n + 1) i ↔ a = i ∨ InWindow N (slot N a 1) n i := by
  constructor
  · rintro ⟨k, hk, rfl⟩
    cases k with
    | zero => exact Or.inl (slot_zero ha).symm
    | succ k => exact Or.inr ⟨k, by omega, by rw [slot_slot, Nat.add_comm 1 k]⟩
  · rintro (rfl | ⟨k, hk, rfl⟩)
    · exact ⟨0, by omega, slot_zero ha⟩
    · exact ⟨k + 1, by omega, by rw [slot_slot, Nat.add_comm 1 k]⟩

theorem inWindow_snoc_iff :
    InWindow N a (n + 1) i ↔ InWindow N a n i ∨ slot N a n = i := by
  constructor
  · rintro ⟨k, hk, he⟩
    rcases Nat.lt_succ_iff_lt_or_eq.mp hk with h | rfl
    · exact Or.inl ⟨k, h, he⟩
    · exact Or.inr he
  · rintro (⟨k, hk, he⟩ | he)
    · exact ⟨k, by omega, he⟩
    · exact ⟨n, by omega, he⟩

/-- The first slot of a window that leaves room does not come again in it. -/
theorem first_not_inWindow (ha : a < N) (hn : n < N) : ¬ InWindow N (slot N a 1) n a := by
  rintro ⟨k, hk, he⟩
  rw [slot_slot] at he
  have h0 : slot N a (1 + k) = slot N a 0 := by rw [he, slot_zero ha]
  have := slot_inj (by omega) (by omega) h0
  omega

theorem not_inWindow_zero : ¬ InWindow N a 0 i := by
  rintro ⟨k, hk, _⟩
  omega

end Circular
