import Mathlib.Data.List.Basic
import Mathlib.Logic.Function.Basic

/-!
# Singly linked lists

Nodes are linked by a function `next : α → Option α`, where `none` is a null link.  A list is reached
from its head: `Path next h l` says that the links lead from `h` through the nodes `l`, in this order,
to a null link.

* `Path.unique` — the nodes reached from a head are determined by the links;
* `Path.update_of_notMem` — **the frame rule**: writing the link of a node that is not reached;
* `Path.snoc` — writing the last link appends a node.
-/

namespace LinkedList

variable {α : Type*} {next : α → Option α} {h : Option α} {a b m t : α} {l l' : List α}

/-- The links lead from `h` through the nodes `l` to a null link. -/
def Path (next : α → Option α) : Option α → List α → Prop
  | h, [] => h = none
  | h, a :: l => h = some a ∧ Path next (next a) l

theorem Path.unique (hl : Path next h l) (hl' : Path next h l') : l = l' := by
  induction l generalizing h l' with
  | nil =>
      cases l' with
      | nil => rfl
      | cons b l' => cases hl.symm.trans hl'.1
  | cons a l ih =>
      cases l' with
      | nil => cases hl'.symm.trans hl.1
      | cons b l' =>
          obtain rfl : a = b := Option.some.inj (hl.1.symm.trans hl'.1)
          rw [ih hl.2 hl'.2]

theorem Path.head_ne_none (hl : Path next h l) (hne : l ≠ []) : h ≠ none := by
  cases l with
  | nil => exact absurd rfl hne
  | cons a l =>
      rw [hl.1]
      exact Option.some_ne_none a

theorem path_singleton (ha : next a = none) : Path next (some a) [a] := ⟨rfl, ha⟩

variable [DecidableEq α]

/-- **The frame rule.** -/
theorem Path.update_of_notMem (hl : Path next h l) (hb : b ∉ l) (v : Option α) :
    Path (Function.update next b v) h l := by
  induction l generalizing h with
  | nil => exact hl
  | cons a l ih =>
      rw [List.mem_cons, not_or] at hb
      refine ⟨hl.1, ?_⟩
      rw [Function.update_of_ne (Ne.symm hb.1)]
      exact ih hl.2 hb.2

/-- **A node is appended**: the last node's link is written, to a node with a null link. -/
theorem Path.snoc (hl : Path next h (l ++ [t])) (ht : t ∉ l) (hm : m ≠ t) (hnull : next m = none) :
    Path (Function.update next t (some m)) h (l ++ [t, m]) := by
  induction l generalizing h with
  | nil =>
      refine ⟨hl.1, ?_⟩
      rw [Function.update_self]
      exact ⟨rfl, by rw [Function.update_of_ne hm, hnull]; rfl⟩
  | cons a l ih =>
      rw [List.mem_cons, not_or] at ht
      refine ⟨hl.1, ?_⟩
      rw [Function.update_of_ne (Ne.symm ht.1)]
      exact ih hl.2 ht.2

end LinkedList
