import Mathlib.Algebra.BigOperators.Group.List.Basic
import Rtl812x.Lib.Circular

/-!
# Consecutive blocks on a circle

A ring of `N` places is handed out in blocks, each right after the one before, and taken back in the
same order.  A block has a first place and a length; the places it takes run on round the ring.  The
same block also has a **linear** interval, from its first place on and beyond the end of the ring.

* `Consecutive N index len first l` — the blocks `l` lie one after the other from `first` on;
  `Consecutive.snoc`, `Consecutive.index_eq` — one more block, and where each one begins;
* `extent len l` — the places of all the blocks;
* `marks len l` — the blocks as a list of places, of which the last of each block is marked;
  `marks_drop_of_lt`, `marks_drop_of_last` — what is taken back place by place;
* `apart_of_fits` — **blocks that share no place of the ring have disjoint linear intervals**;
  `apart_iff` — a block that starts before another comes round to it exactly when it reaches it.
-/

namespace Blocks

open Circular

variable {α : Type*} {N first lead : ℕ} {index len : α → ℕ} {a b : α} {l l' : List α}

/-- The blocks lie one after the other, from `first` on. -/
def Consecutive (N : ℕ) (index len : α → ℕ) : ℕ → List α → Prop
  | _, [] => True
  | first, a :: l => index a = first ∧ Consecutive N index len (slot N first (len a)) l

/-- The places of all the blocks. -/
def extent (len : α → ℕ) (l : List α) : ℕ := (l.map len).sum

@[simp] theorem extent_nil : extent len [] = 0 := rfl

@[simp] theorem extent_cons : extent len (a :: l) = len a + extent len l := by
  simp [extent]

@[simp] theorem extent_append : extent len (l ++ l') = extent len l + extent len l' := by
  simp [extent]

/-- A block of a list of consecutive ones begins after those before it. -/
theorem Consecutive.index_eq (hfirst : first < N) (h : Consecutive N index len first (l ++ a :: l')) :
    index a = slot N first (extent len l) := by
  induction l generalizing first with
  | nil => exact h.1.trans (slot_zero hfirst).symm
  | cons b l ih => rw [extent_cons, ← slot_slot, ih (slot_lt (by omega) _ _) h.2]

/-- One more block. -/
theorem Consecutive.snoc (hfirst : first < N) (h : Consecutive N index len first l)
    (ha : index a = slot N first (extent len l)) : Consecutive N index len first (l ++ [a]) := by
  induction l generalizing first with
  | nil => exact ⟨ha.trans (slot_zero hfirst), trivial⟩
  | cons b l ih =>
      refine ⟨h.1, ih (slot_lt (by omega) _ _) h.2 ?_⟩
      rw [ha, extent_cons, slot_slot]

/-! ### Place by place -/

/-- The places of a block, of which the last is marked. -/
def markBlock (n : ℕ) : List Bool := List.replicate (n - 1) false ++ [true]

/-- The places of the blocks. -/
def marks (len : α → ℕ) (l : List α) : List Bool := l.flatMap fun a => markBlock (len a)

theorem marks_append : marks len (l ++ l') = marks len l ++ marks len l' := List.flatMap_append

theorem marks_cons : marks len (a :: l) = markBlock (len a) ++ marks len l := rfl

theorem markBlock_length {n : ℕ} (hn : 0 < n) : (markBlock n).length = n := by
  rw [markBlock, List.length_append, List.length_replicate, List.length_singleton]
  omega

theorem marks_length (hpos : ∀ a ∈ l, 0 < len a) : (marks len l).length = extent len l := by
  induction l with
  | nil => rfl
  | cons a l ih =>
      rw [marks_cons, List.length_append, markBlock_length (hpos a (List.mem_cons_self ..)),
        ih fun b hb => hpos b (List.mem_cons_of_mem _ hb), extent_cons]

/-- Within the first block the next place is not marked. -/
theorem marks_drop_of_lt (h : lead + 1 < len a) :
    (marks len (a :: l)).drop lead = false :: (marks len (a :: l)).drop (lead + 1) := by
  have hlen : lead < (marks len (a :: l)).length := by
    rw [marks_cons, List.length_append, markBlock_length (by omega)]
    omega
  rw [List.drop_eq_getElem_cons hlen]
  congr 1
  have hblock : lead < (List.replicate (len a - 1) false).length := by
    rw [List.length_replicate]
    omega
  simp only [marks_cons, markBlock, List.append_assoc]
  rw [List.getElem_append_left hblock, List.getElem_replicate]

/-- The last place of the first block is marked, and the next block follows. -/
theorem marks_drop_of_last (h : lead + 1 = len a) :
    (marks len (a :: l)).drop lead = true :: marks len l := by
  have hlead : len a - 1 = lead := by omega
  rw [marks_cons, markBlock, hlead, List.append_assoc, List.drop_append_of_le_length (by simp)]
  simp

/-! ### Linear intervals -/

variable {x m n δ : ℕ}

/-- **Within a lap**: a block that begins `δ` places after one of `m` places, and ends before coming
round to it, has a linear interval disjoint from its. -/
theorem apart_of_fits (hx : x < N) (hm : m ≤ δ) (hfit : δ + n ≤ N) :
    x + m ≤ slot N x δ ∨ slot N x δ + n ≤ x := by
  rw [slot]
  by_cases hwrap : x + δ < N
  · rw [Nat.mod_eq_of_lt hwrap]
    omega
  · rw [Nat.mod_eq_sub_mod (by omega)]
    by_cases hlap : x + δ - N < N
    · rw [Nat.mod_eq_of_lt hlap]
      omega
    · omega

/-- A block that begins before another in the same lap has a disjoint interval unless it runs into
it. -/
theorem apart_iff (hx : x < N) (hm : m ≤ δ) (hδ : δ < N) :
    (x + m ≤ slot N x δ ∨ slot N x δ + n ≤ x) ↔ ¬ (slot N x δ < x ∧ x < slot N x δ + n) := by
  rw [slot]
  by_cases hwrap : x + δ < N
  · rw [Nat.mod_eq_of_lt hwrap]
    omega
  · rw [Nat.mod_eq_sub_mod (by omega), Nat.mod_eq_of_lt (by omega)]
    omega

end Blocks
