import Mathlib.Data.List.Basic

/-!
# Records of events

A record is a list of events, newest first, that only grows.  Two kinds of events matter: some call
for an answer (`push`), some are one (`req`).  A record is **answered** when an answer came after the
last event that called for one.

* `Answered push req l` — the scan of the record, newest event first;
* `answered_iff` — it says what it should: every event that calls for an answer has a later one;
* `Grew P old new` — the record grew by a list with property `P`; `Grew.trans` chains such growth
  where `P` is closed under appending, as `Answered` is (`Answered.append`);
* `LiveUses uses releases dead l` — a record read oldest event first uses nothing that was released;
  `liveUses_iff` — what the scan says, `liveUses_snoc` — one event more.
-/

namespace Trace

variable {ε : Type*} {push req : ε → Prop} {l l' old mid new : List ε} {e : ε}

/-- Since the newest event that calls for an answer there has been one. -/
def Answered (push req : ε → Prop) : List ε → Prop
  | [] => True
  | e :: t => req e ∨ ¬ push e ∧ Answered push req t

/-- **Every event that calls for an answer has a later one.** -/
theorem answered_iff :
    Answered push req l ↔
      ∀ newer e older, l = newer ++ e :: older → push e → req e ∨ ∃ r ∈ newer, req r := by
  induction l with
  | nil =>
      refine ⟨fun _ newer e older h => ?_, fun _ => trivial⟩
      exact absurd h.symm (List.append_ne_nil_of_right_ne_nil _ (List.cons_ne_nil _ _))
  | cons a t ih =>
      rw [Answered, ih]
      constructor
      · rintro (ha | ⟨hna, ht⟩) newer e older h hpush
        · cases newer with
          | nil =>
              rw [List.nil_append, List.cons.injEq] at h
              exact Or.inl (h.1 ▸ ha)
          | cons b newer =>
              rw [List.cons_append, List.cons.injEq] at h
              exact Or.inr ⟨b, List.mem_cons_self .., h.1 ▸ ha⟩
        · cases newer with
          | nil =>
              rw [List.nil_append, List.cons.injEq] at h
              exact absurd (h.1 ▸ hpush) hna
          | cons b newer =>
              rw [List.cons_append, List.cons.injEq] at h
              rcases ht newer e older h.2 hpush with hr | ⟨r, hmem, hr⟩
              · exact Or.inl hr
              · exact Or.inr ⟨r, List.mem_cons_of_mem _ hmem, hr⟩
      · intro h
        by_cases ha : req a
        · exact Or.inl ha
        · refine Or.inr ⟨fun hpush => ?_, fun newer e older ht hpush => ?_⟩
          · rcases h [] a t rfl hpush with hr | ⟨r, hmem, _⟩
            · exact ha hr
            · cases hmem
          · rcases h (a :: newer) e older (by rw [ht, List.cons_append]) hpush with hr | ⟨r, hmem, hr⟩
            · exact Or.inl hr
            · rcases List.mem_cons.mp hmem with rfl | hmem
              · exact absurd hr ha
              · exact Or.inr ⟨r, hmem, hr⟩

/-- Nothing to answer. -/
theorem answered_of_not_push (h : ∀ e ∈ l, ¬ push e) : Answered push req l := by
  induction l with
  | nil => trivial
  | cons a t ih =>
      exact Or.inr ⟨h a (List.mem_cons_self ..), ih fun e he => h e (List.mem_cons_of_mem _ he)⟩

/-- Without an answer nothing may call for one. -/
theorem Answered.not_push (h : Answered push req l) (hno : ∀ e ∈ l, ¬ req e) :
    ∀ e ∈ l, ¬ push e := by
  induction l with
  | nil => exact fun e he => absurd he List.not_mem_nil
  | cons a t ih =>
      rcases h with h | ⟨hna, ht⟩
      · exact absurd h (hno a (List.mem_cons_self ..))
      · intro e he
        rcases List.mem_cons.mp he with rfl | he
        · exact hna
        · exact ih ht (fun e he => hno e (List.mem_cons_of_mem _ he)) e he

/-- An answered record followed by an answered record. -/
theorem Answered.append (h' : Answered push req l') (h : Answered push req l) :
    Answered push req (l' ++ l) := by
  induction l' with
  | nil => exact h
  | cons a t ih =>
      rcases h' with h' | ⟨hna, ht⟩
      · exact Or.inl h'
      · exact Or.inr ⟨hna, ih ht⟩

/-- Answers come, and nothing new calls for one. -/
theorem answered_append_of_req (hno : ∀ e ∈ l', ¬ push e) (hreq : ∃ r ∈ l', req r) (l : List ε) :
    Answered push req (l' ++ l) := by
  induction l' with
  | nil =>
      obtain ⟨r, hmem, _⟩ := hreq
      cases hmem
  | cons a t ih =>
      by_cases ha : req a
      · exact Or.inl ha
      · refine Or.inr ⟨hno a (List.mem_cons_self ..), ?_⟩
        refine ih (fun e he => hno e (List.mem_cons_of_mem _ he)) ?_
        obtain ⟨r, hmem, hr⟩ := hreq
        rcases List.mem_cons.mp hmem with rfl | hmem
        · exact absurd hr ha
        · exact ⟨r, hmem, hr⟩

/-! ### What a call adds -/

/-- The record grew by a list with this property. -/
def Grew (P : List ε → Prop) (old new : List ε) : Prop := ∃ added, new = added ++ old ∧ P added

theorem Grew.mk {P : List ε → Prop} {added : List ε} (h : P added) (old : List ε) :
    Grew P old (added ++ old) := ⟨added, rfl, h⟩

theorem Grew.trans {P : List ε → Prop} (happend : ∀ l' l, P l' → P l → P (l' ++ l))
    (h : Grew P old mid) (h' : Grew P mid new) : Grew P old new := by
  obtain ⟨added, rfl, hP⟩ := h
  obtain ⟨added', rfl, hP'⟩ := h'
  exact ⟨added' ++ added, (List.append_assoc ..).symm, happend _ _ hP' hP⟩

/-- What was added is determined by the two records. -/
theorem Grew.added {P : List ε → Prop} {added : List ε} (h : Grew P old (added ++ old)) : P added := by
  obtain ⟨added', heq, hP⟩ := h
  rwa [List.append_cancel_right heq]

/-! ### Use after release -/

section Release

variable {β : Type*} (uses releases : ε → List β)

/-- No event of the record uses what is in `dead` or what an earlier event of it released. -/
def LiveUses : List β → List ε → Prop
  | _, [] => True
  | dead, e :: t => (∀ x ∈ uses e, x ∉ dead) ∧ LiveUses (dead ++ releases e) t

instance decidableLiveUses [DecidableEq β] :
    ∀ (dead : List β) (t : List ε), Decidable (LiveUses uses releases dead t)
  | _, [] => isTrue trivial
  | dead, e :: t =>
      have := decidableLiveUses (dead ++ releases e) t
      inferInstanceAs (Decidable ((∀ x ∈ uses e, x ∉ dead) ∧ LiveUses uses releases (dead ++ releases e) t))

variable {uses releases}

/-- **Nothing is used after it was released.** -/
theorem liveUses_iff {dead : List β} :
    LiveUses uses releases dead l ↔ ∀ before e later, l = before ++ e :: later →
      ∀ x ∈ uses e, x ∉ dead ++ before.flatMap releases := by
  induction l generalizing dead with
  | nil =>
      refine ⟨fun _ before e later h => ?_, fun _ => trivial⟩
      exact absurd h.symm (List.append_ne_nil_of_right_ne_nil _ (List.cons_ne_nil _ _))
  | cons a t ih =>
      rw [LiveUses, ih]
      constructor
      · rintro ⟨hhead, htail⟩ before e later h
        cases before with
        | nil =>
            rw [List.nil_append, List.cons.injEq] at h
            rw [List.flatMap_nil, List.append_nil, ← h.1]
            exact hhead
        | cons b before =>
            rw [List.cons_append, List.cons.injEq] at h
            rw [List.flatMap_cons, ← List.append_assoc, ← h.1]
            exact htail before e later h.2
      · intro h
        refine ⟨?_, fun before e later ht => ?_⟩
        · have hhead := h [] a t rfl
          rwa [List.flatMap_nil, List.append_nil] at hhead
        · have htail := h (a :: before) e later (by rw [ht, List.cons_append])
          rwa [List.flatMap_cons, ← List.append_assoc] at htail

theorem liveUses_snoc {dead : List β} (l : List ε) (e : ε) :
    LiveUses uses releases dead (l ++ [e]) ↔
      LiveUses uses releases dead l ∧ ∀ x ∈ uses e, x ∉ dead ++ l.flatMap releases := by
  induction l generalizing dead with
  | nil => simp [LiveUses]
  | cons a t ih =>
      rw [List.cons_append, LiveUses, LiveUses, ih, List.flatMap_cons, List.append_assoc, and_assoc]

end Release

end Trace
