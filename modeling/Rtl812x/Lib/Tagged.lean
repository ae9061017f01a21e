import Mathlib.Data.List.Basic
import Mathlib.Data.List.Nodup
import Mathlib.Data.List.Perm.Basic
import Mathlib.Data.List.Range

/-!
# Several queues in one list

A list of pairs (item, tag) stands for one queue per tag: `queueOf l t` is the queue of tag `t`.
Appending to one queue (`queueOf_snoc_self`, `queueOf_snoc_of_ne`) and taking its head
(`queueOf_take`) are described on the list, and `flatMap_queueOf_perm` says that the queues
together are the list again.  `filter_fst_of_nodup` — an item that occurs once is found at exactly
one place.
-/

namespace Tagged

variable {α : Type*} {l : List (α × ℕ)} {a : α} {t t' n : ℕ} {r : List α}

/-- The queue of one tag. -/
def queueOf (l : List (α × ℕ)) (t : ℕ) : List α := (l.filter (·.2 = t)).map Prod.fst

theorem queueOf_cons_self (a : α) (t : ℕ) (l : List (α × ℕ)) :
    queueOf ((a, t) :: l) t = a :: queueOf l t := by
  simp [queueOf]

theorem queueOf_cons_of_ne (h : t ≠ t') (a : α) (l : List (α × ℕ)) :
    queueOf ((a, t) :: l) t' = queueOf l t' := by
  simp [queueOf, h]

theorem queueOf_snoc_self (l : List (α × ℕ)) (a : α) (t : ℕ) :
    queueOf (l ++ [(a, t)]) t = queueOf l t ++ [a] := by
  simp [queueOf]

theorem queueOf_snoc_of_ne (h : t ≠ t') (l : List (α × ℕ)) (a : α) :
    queueOf (l ++ [(a, t)]) t' = queueOf l t' := by
  simp [queueOf, h]

theorem length_queueOf_le (l : List (α × ℕ)) (t : ℕ) : (queueOf l t).length ≤ l.length := by
  rw [queueOf, List.length_map]
  exact List.length_filter_le _ _

/-- **Taking the head of one queue** removes one pair and leaves the other queues alone. -/
theorem queueOf_take (h : queueOf l t = a :: r) :
    ∃ l', l.Perm ((a, t) :: l') ∧ queueOf l' t = r ∧ ∀ t', t ≠ t' → queueOf l' t' = queueOf l t' := by
  induction l with
  | nil => cases h
  | cons x l ih =>
      obtain ⟨b, u⟩ := x
      by_cases hu : u = t
      · subst hu
        rw [queueOf_cons_self, List.cons.injEq] at h
        obtain ⟨rfl, hr⟩ := h
        exact ⟨l, .refl _, hr, fun t' ht => (queueOf_cons_of_ne ht b l).symm⟩
      · rw [queueOf_cons_of_ne hu] at h
        obtain ⟨l', hperm, hr, hother⟩ := ih h
        refine ⟨(b, u) :: l', ?_, ?_, ?_⟩
        · exact (hperm.cons _).trans (.swap _ _ _)
        · rw [queueOf_cons_of_ne hu, hr]
        · intro t' ht
          by_cases hut : u = t'
          · subst hut
            rw [queueOf_cons_self, queueOf_cons_self, hother u ht]
          · rw [queueOf_cons_of_ne hut, queueOf_cons_of_ne hut, hother t' ht]

/-- The queues of all tags below `n` are the pairs with such a tag. -/
theorem flatMap_queueOf_perm_filter (l : List (α × ℕ)) (n : ℕ) :
    ((List.range n).flatMap fun t => (queueOf l t).map fun a => (a, t)).Perm
      (l.filter (·.2 < n)) := by
  induction n with
  | zero => simp
  | succ n ih =>
      have hlast : (queueOf l n).map (fun a => (a, n)) = l.filter (·.2 = n) := by
        rw [queueOf, List.map_map]
        conv_rhs => rw [← List.map_id (l.filter (·.2 = n))]
        apply List.map_congr_left
        rintro ⟨b, u⟩ hx
        have hu : u = n := by simpa using (List.mem_filter.mp hx).2
        simp [hu]
      rw [List.range_succ, List.flatMap_append, List.flatMap_singleton, hlast]
      refine (ih.append_right _).trans ?_
      have hsplit := List.filter_append_perm (fun x : α × ℕ => decide (x.2 < n))
        (l.filter (·.2 < n + 1))
      rw [List.filter_filter, List.filter_filter] at hsplit
      have hlow : l.filter (fun x => decide (x.2 < n) && decide (x.2 < n + 1)) = l.filter (·.2 < n) := by
        apply List.filter_congr
        intro x _
        simp only [← Bool.decide_and, decide_eq_decide]
        omega
      have hhigh : l.filter (fun x => (!decide (x.2 < n)) && decide (x.2 < n + 1)) = l.filter (·.2 = n) := by
        apply List.filter_congr
        intro x _
        rw [← decide_not, ← Bool.decide_and, decide_eq_decide]
        omega
      rwa [hlow, hhigh] at hsplit

/-- **The queues together are the list.** -/
theorem flatMap_queueOf_perm (h : ∀ x ∈ l, x.2 < n) :
    ((List.range n).flatMap fun t => (queueOf l t).map fun a => (a, t)).Perm l := by
  have hall : l.filter (·.2 < n) = l := List.filter_eq_self.mpr (by simpa using h)
  have hperm := flatMap_queueOf_perm_filter l n
  rwa [hall] at hperm

/-- An item that occurs once is found once, with its tag. -/
theorem filter_fst_of_nodup [DecidableEq α] (hnodup : (l.map Prod.fst).Nodup) (h : (a, t) ∈ l) :
    l.filter (·.1 = a) = [(a, t)] := by
  induction l with
  | nil => cases h
  | cons x l ih =>
      rw [List.map_cons, List.nodup_cons] at hnodup
      rcases List.mem_cons.mp h with rfl | h
      · have hrest : l.filter (·.1 = a) = [] := by
          rw [List.filter_eq_nil_iff]
          rintro y hy hya
          exact hnodup.1 (List.mem_map.mpr ⟨y, hy, by simpa using hya⟩)
        rw [List.filter_cons_of_pos (by simp), hrest]
      · have hne : ¬ x.1 = a := by
          rintro rfl
          exact hnodup.1 (List.mem_map.mpr ⟨_, h, rfl⟩)
        rw [List.filter_cons_of_neg (by simpa using hne), ih hnodup.2 h]

end Tagged
