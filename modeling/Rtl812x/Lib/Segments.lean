import Mathlib.Data.List.Induction
import Mathlib.Data.List.Infix

/-!
# Cutting a stream into segments

A stream whose items are marked as the last of their segment is cut behind each marked item.

* `cut p l` — the finished segments of `l`, and the items after the last mark;
* `cut_snoc` — what one more item does;
* `cut_finished_append` — a segment once finished stays finished, in its place;
* `cut_flatten_append` — **segments put together are cut into themselves**; `prefix_flatten` — where
  the next item of segments put together belongs.
-/

namespace Segments

variable {α : Type*} (p : α → Bool)

/-- One more item: it ends the open segment if it is marked. -/
def cutStep (acc : List (List α) × List α) (a : α) : List (List α) × List α :=
  if p a then (acc.1 ++ [acc.2 ++ [a]], []) else (acc.1, acc.2 ++ [a])

/-- The finished segments, and the open one. -/
def cut (l : List α) : List (List α) × List α := l.foldl (cutStep p) ([], [])

variable {p} {l : List α} {a : α}

theorem cut_snoc (l : List α) (a : α) : cut p (l ++ [a]) = cutStep p (cut p l) a := by
  rw [cut, List.foldl_append]
  rfl

theorem cut_snoc_last (l : List α) (h : p a = true) :
    cut p (l ++ [a]) = ((cut p l).1 ++ [(cut p l).2 ++ [a]], []) := by
  rw [cut_snoc, cutStep, if_pos h]

theorem cut_snoc_more (l : List α) (h : p a = false) :
    cut p (l ++ [a]) = ((cut p l).1, (cut p l).2 ++ [a]) := by
  rw [cut_snoc, cutStep, if_neg (by rw [h]; decide)]

/-- A finished segment stays. -/
theorem cut_finished_append (l m : List α) : (cut p l).1 <+: (cut p (l ++ m)).1 := by
  induction m using List.reverseRecOn with
  | nil => rw [List.append_nil]
  | append_singleton m a ih =>
      rw [← List.append_assoc]
      cases h : p a with
      | true =>
          rw [cut_snoc_last _ h]
          exact ih.trans (List.prefix_append _ _)
      | false =>
          rw [cut_snoc_more _ h]
          exact ih

/-- The segments and the open one are the stream. -/
theorem cut_flatten_eq (l : List α) : (cut p l).1.flatten ++ (cut p l).2 = l := by
  induction l using List.reverseRecOn with
  | nil => rfl
  | append_singleton l a ih =>
      cases h : p a with
      | true =>
          rw [cut_snoc_last l h, List.flatten_append, List.flatten_singleton, List.append_nil,
            ← List.append_assoc, ih]
      | false => rw [cut_snoc_more l h, ← List.append_assoc, ih]

/-- A segment: its last item is marked, and no other. -/
def IsSegment (p : α → Bool) (f : List α) : Prop :=
  ∃ front a, f = front ++ [a] ∧ p a = true ∧ ∀ x ∈ front, p x = false

/-- Items without a mark go on the open segment. -/
theorem cut_append_open (l : List α) {m : List α} (hm : ∀ x ∈ m, p x = false) :
    cut p (l ++ m) = ((cut p l).1, (cut p l).2 ++ m) := by
  induction m using List.reverseRecOn with
  | nil => rw [List.append_nil, List.append_nil]
  | append_singleton m a ih =>
      have ha : p a = false := hm a (List.mem_append_right _ (List.mem_singleton_self a))
      rw [← List.append_assoc, cut_snoc_more _ ha, ih fun x hx => hm x (List.mem_append_left _ hx),
        List.append_assoc]

/-- **Segments, and items behind them without a mark.** -/
theorem cut_flatten_append {segs : List (List α)} (hsegs : ∀ f ∈ segs, IsSegment p f) {m : List α}
    (hm : ∀ x ∈ m, p x = false) : cut p (segs.flatten ++ m) = (segs, m) := by
  induction segs using List.reverseRecOn generalizing m with
  | nil =>
      rw [List.flatten_nil, cut_append_open [] hm]
      rfl
  | append_singleton segs f ih =>
      obtain ⟨front, a, rfl, ha, hfront⟩ := hsegs f (List.mem_append_right _ (List.mem_singleton_self f))
      have hcut := ih (fun f hf => hsegs f (List.mem_append_left _ hf)) hfront
      rw [cut_append_open _ hm, List.flatten_append, List.flatten_singleton, ← List.append_assoc,
        cut_snoc_last _ ha, hcut, List.nil_append]

/-- The item behind a beginning of segments put together. -/
theorem prefix_flatten {segs : List (List α)} (h : l ++ [a] <+: segs.flatten) :
    ∃ done f todo front rest, segs = done ++ f :: todo ∧ f = front ++ a :: rest ∧
      l = done.flatten ++ front := by
  induction segs generalizing l with
  | nil =>
      rw [List.flatten_nil, List.prefix_nil, List.append_eq_nil_iff] at h
      cases h.2
  | cons f segs ih =>
      rw [List.flatten_cons] at h
      by_cases hlen : l.length < f.length
      · have hpre : l ++ [a] <+: f :=
          List.prefix_of_prefix_length_le h (List.prefix_append _ _) (by simp; omega)
        obtain ⟨rest, hrest⟩ := hpre
        exact ⟨[], f, segs, l, rest, rfl, by rw [← hrest, List.append_assoc]; rfl, rfl⟩
      · obtain ⟨l', rfl⟩ : f <+: l := List.prefix_of_prefix_length_le (List.prefix_append _ _)
          ((List.prefix_append l [a]).trans h) (by omega)
        rw [List.append_assoc, List.prefix_append_right_inj] at h
        obtain ⟨done, g, todo, front, rest, rfl, hg, rfl⟩ := ih h
        exact ⟨f :: done, g, todo, front, rest, rfl, hg, by rw [List.flatten_cons, List.append_assoc]⟩

end Segments
