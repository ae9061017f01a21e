import Mathlib.Data.List.Nodup
import Mathlib.Logic.Function.Basic

/-!
# Handles: pointers to resources

A program that acquires resources one by one and releases them on the way out keeps a pointer to each;
a null pointer says that there is nothing to release.  A table `t : ρ → Handle` gives for each resource
the pointer (null or not) and how often the resource was acquired and released.

* `orGoto` — a call, the label to go to if it fails, and what follows if it does not;
* `take` — a pointer is set to what a call returns; `takeAll` — a sequence of such calls, left at the
  first that fails;
* `drop` — release and clear, unless the pointer is null; `dropAll`; `dropKept` — release only;
* `Releases P t t'` — **the handles in `P` are released and cleared, the others are as before**;
* `Even` — what was acquired and not released is what the pointer points to; `Over` — something was
  released that the pointer still points to, or released twice.  Releasing keeps both;
* `Shaped box fresh t` — the resources `fresh` have not been touched, and a pointer kept inside another
  resource (`box`) is null if that one is gone.
-/

namespace Handles

/-! ### Calls that can fail -/

section OrGoto

variable {σ τ : Type*} {call : Bool × σ} {label next : σ → τ}

/-- `if (!call) goto label;` and what follows. -/
def orGoto (call : Bool × σ) (label next : σ → τ) : τ :=
  if call.1 then next call.2 else label call.2

/-- What holds on both ways out. -/
theorem orGoto_elim {Q : τ → Prop} (hfail : call.1 = false → Q (label call.2))
    (hnext : call.1 = true → Q (next call.2)) : Q (orGoto call label next) := by
  unfold orGoto
  split
  case isTrue h => exact hnext h
  case isFalse h => exact hfail (by simpa using h)

theorem orGoto_ok (h : call.1 = true) : orGoto call label next = next call.2 := if_pos h

theorem orGoto_failed (h : call.1 = false) : orGoto call label next = label call.2 :=
  if_neg (by rw [h]; exact Bool.false_ne_true)

end OrGoto

/-! ### Handles -/

@[ext]
structure Handle where
  ptr : Bool
  acquired : ℕ
  released : ℕ
deriving DecidableEq, Repr

namespace Handle

def null : Handle := ⟨false, 0, 0⟩

/-- What was acquired and not released is what the pointer points to. -/
structure Even (h : Handle) : Prop where
  held : h.acquired = h.released + h.ptr.toNat
  once : h.acquired ≤ 1

/-- More was released, or would be, than was acquired. -/
def Over (h : Handle) : Prop := h.acquired < h.released + h.ptr.toNat

theorem even_null : Even null := ⟨rfl, Nat.zero_le 1⟩

/-- A handle that is even and cleared: what was acquired was released, once. -/
theorem Even.released_eq {h : Handle} (he : h.Even) (hptr : h.ptr = false) : h.released = h.acquired := by
  rw [he.held, hptr, Bool.toNat_false, Nat.add_zero]

theorem Over.lt_released {h : Handle} (ho : h.Over) (hptr : h.ptr = false) : h.acquired < h.released := by
  rwa [Over, hptr, Bool.toNat_false, Nat.add_zero] at ho

end Handle

variable {ρ : Type*}

/-- The handles in `P` are released and cleared, the others are as before. -/
structure Releases (P : ρ → Prop) (t t' : ρ → Handle) : Prop where
  frame : ∀ x, ¬P x → t' x = t x
  null : ∀ x, P x → (t' x).ptr = false
  acquired : ∀ x, (t' x).acquired = (t x).acquired
  owed : ∀ x, (t' x).released + (t' x).ptr.toNat = (t x).released + (t x).ptr.toNat

/-- Fresh resources are untouched, and what is kept inside a resource is gone with it. -/
structure Shaped (box : ρ → Option ρ) (fresh : ρ → Prop) (t : ρ → Handle) : Prop where
  fresh : ∀ r, fresh r → t r = .null
  within : ∀ x b, box x = some b → (t x).ptr = true → (t b).ptr = true

section Tables

variable {box : ρ → Option ρ} {fresh fresh' : ρ → Prop} {P Q : ρ → Prop} {t t' t'' : ρ → Handle}

theorem shaped_null : Shaped box fresh fun _ => .null := ⟨fun _ _ => rfl, fun _ _ _ h => h⟩

theorem Shaped.mono (h : Shaped box fresh t) (hle : ∀ r, fresh' r → fresh r) : Shaped box fresh' t :=
  ⟨fun r hr => h.fresh r (hle r hr), h.within⟩

/-- Pointers that are null need no release. -/
theorem Releases.of_null (h : ∀ x, P x → (t x).ptr = false) : Releases P t t :=
  ⟨fun _ _ => rfl, h, fun _ => rfl, fun _ => rfl⟩

theorem Releases.trans (h : Releases P t t') (h' : Releases Q t' t'') :
    Releases (fun x => P x ∨ Q x) t t'' := by
  refine ⟨fun x hx => ?_, fun x hx => ?_, fun x => (h'.acquired x).trans (h.acquired x),
    fun x => (h'.owed x).trans (h.owed x)⟩
  · obtain ⟨hP, hQ⟩ := not_or.mp hx
    exact (h'.frame x hQ).trans (h.frame x hP)
  · by_cases hQ : Q x
    · exact h'.null x hQ
    · rw [h'.frame x hQ]
      exact h.null x (hx.resolve_right hQ)

theorem Releases.congr (h : Releases P t t') (hPQ : ∀ x, P x ↔ Q x) : Releases Q t t' :=
  ⟨fun x hx => h.frame x (mt (hPQ x).mp hx), fun x hx => h.null x ((hPQ x).mpr hx), h.acquired, h.owed⟩

/-- More handles, whose pointers are null. -/
theorem Releases.extend (h : Releases P t t') (hPQ : ∀ x, P x → Q x)
    (hnull : ∀ x, Q x → ¬P x → (t x).ptr = false) : Releases Q t t' := by
  refine ⟨fun x hx => h.frame x (mt (hPQ x) hx), fun x hx => ?_, h.acquired, h.owed⟩
  by_cases hP : P x
  · exact h.null x hP
  · rw [h.frame x hP]
    exact hnull x hx hP

/-- Releasing sets no pointer. -/
theorem Releases.ptr (h : Releases P t t') {x : ρ} (hx : (t' x).ptr = true) : (t x).ptr = true := by
  by_cases hP : P x
  · rw [h.null x hP] at hx
    cases hx
  · rwa [h.frame x hP] at hx

theorem Releases.even (h : Releases P t t') {x : ρ} (he : (t x).Even) : (t' x).Even :=
  ⟨by rw [h.acquired, h.owed, he.held], by rw [h.acquired]; exact he.once⟩

theorem Releases.over (h : Releases P t t') {x : ρ} (ho : (t x).Over) : (t' x).Over := by
  rwa [Handle.Over, h.acquired, h.owed]

/-- **Releasing keeps the shape** if whatever is kept in a released resource is released too. -/
theorem Releases.shaped (h : Releases P t t') (hs : Shaped box fresh t)
    (hclosed : ∀ x b, box x = some b → P b → P x ∨ (t x).ptr = false) : Shaped box fresh t' := by
  refine ⟨fun r hr => ?_, fun x b hb hx => ?_⟩
  · have hnull := hs.fresh r hr
    by_cases hP : P r
    · -- released, and the sum of what was released is still zero
      have hptr := h.null r hP
      have hacq := h.acquired r
      have howed := h.owed r
      rw [hnull] at hacq howed
      have hrel : (t' r).released = 0 := by
        rw [hptr] at howed
        simpa [Handle.null] using howed
      exact Handle.ext hptr hacq hrel
    · rw [h.frame r hP, hnull]
  · have hold := h.ptr hx
    have hP : ¬P b := by
      intro hP
      rcases hclosed x b hb hP with hP' | hnull
      · rw [h.null x hP'] at hx
        cases hx
      · rw [hnull] at hold
        cases hold
    rw [h.frame b hP]
    exact hs.within x b hb hold

end Tables

/-! ### Operations -/

variable [DecidableEq ρ]

def take (r : ρ) (ok : Bool) (t : ρ → Handle) : ρ → Handle :=
  Function.update t r ⟨ok, (t r).acquired + ok.toNat, (t r).released⟩

def drop (r : ρ) (t : ρ → Handle) : ρ → Handle :=
  if (t r).ptr then Function.update t r ⟨false, (t r).acquired, (t r).released + 1⟩ else t

def dropKept (r : ρ) (t : ρ → Handle) : ρ → Handle :=
  Function.update t r ⟨(t r).ptr, (t r).acquired, (t r).released + 1⟩

def dropAll : List ρ → (ρ → Handle) → ρ → Handle
  | [], t => t
  | r :: rs, t => dropAll rs (drop r t)

/-- Calls in order: each sets a pointer or none, and the first that fails is the last. -/
def takeAll : List (Option ρ × Bool) → (ρ → Handle) → Bool × (ρ → Handle)
  | [], t => (true, t)
  | (r, ok) :: calls, t =>
      let t := match r with
        | some r => take r ok t
        | none => t
      if ok then takeAll calls t else (false, t)

/-- The resources the calls set pointers to. -/
def targets (calls : List (Option ρ × Bool)) : List ρ := calls.filterMap Prod.fst

variable {r x : ρ} {t : ρ → Handle} {box : ρ → Option ρ} {fresh : ρ → Prop}

theorem take_of_ne (h : x ≠ r) (ok : Bool) (t : ρ → Handle) : take r ok t x = t x :=
  Function.update_of_ne h _ _

theorem take_ptr (r : ρ) (ok : Bool) (t : ρ → Handle) : (take r ok t r).ptr = ok := by
  rw [take, Function.update_self]

theorem dropKept_of_ne (h : x ≠ r) (t : ρ → Handle) : dropKept r t x = t x :=
  Function.update_of_ne h _ _

theorem dropKept_ptr (r x : ρ) (t : ρ → Handle) : (dropKept r t x).ptr = (t x).ptr := by
  by_cases h : x = r
  · rw [h, dropKept, Function.update_self]
  · rw [dropKept_of_ne h]

theorem takeAll_of_notMem {calls : List (Option ρ × Bool)} (h : x ∉ targets calls) (t : ρ → Handle) :
    (takeAll calls t).2 x = t x := by
  induction calls generalizing t with
  | nil => rfl
  | cons call calls ih =>
      obtain ⟨r, ok⟩ := call
      cases r with
      | none =>
          rw [takeAll]
          split
          · exact ih h t
          · rfl
      | some r =>
          obtain ⟨hr, hrs⟩ := List.ne_and_not_mem_of_not_mem_cons (show x ∉ r :: targets calls from h)
          rw [takeAll]
          split
          · exact (ih hrs _).trans (take_of_ne hr _ _)
          · exact take_of_ne hr _ _

theorem takeAll_fst (calls : List (Option ρ × Bool)) (t : ρ → Handle) :
    (takeAll calls t).1 = calls.all Prod.snd := by
  induction calls generalizing t with
  | nil => rfl
  | cons call calls ih =>
      obtain ⟨r, ok⟩ := call
      rw [List.all_cons]
      cases ok with
      | true => cases r <;> exact ih _
      | false => cases r <;> rfl

/-! ### Releasing -/

theorem releases_drop (r : ρ) (t : ρ → Handle) : Releases (· = r) t (drop r t) := by
  unfold drop
  split
  case isTrue hptr =>
    have hself : ∀ x, x = r → Function.update t r ⟨false, (t r).acquired, (t r).released + 1⟩ x =
        ⟨false, (t x).acquired, (t x).released + 1⟩ := by
      rintro _ rfl
      exact Function.update_self _ _ _
    refine ⟨fun x hx => Function.update_of_ne hx _ _, fun x hx => by rw [hself x hx], fun x => ?_,
      fun x => ?_⟩
    · by_cases hx : x = r
      · rw [hself x hx]
      · rw [Function.update_of_ne hx]
    · by_cases hx : x = r
      · rw [hself x hx, hx, hptr]
        rfl
      · rw [Function.update_of_ne hx]
  case isFalse hptr =>
    refine .of_null fun x hx => ?_
    rw [hx]
    exact Bool.eq_false_iff.mpr hptr

theorem releases_dropAll (rs : List ρ) (t : ρ → Handle) : Releases (· ∈ rs) t (dropAll rs t) := by
  induction rs generalizing t with
  | nil => exact .of_null fun _ hx => absurd hx List.not_mem_nil
  | cons r rs ih => exact ((releases_drop r t).trans (ih _)).congr fun _ => List.mem_cons.symm

/-- A resource released without clearing the pointer is released too often. -/
theorem over_dropKept (he : (t r).Even) : (dropKept r t r).Over := by
  have hheld := he.held
  rw [Handle.Over, dropKept, Function.update_self]
  dsimp only
  omega

theorem Shaped.dropKept (h : Shaped box fresh t) (hr : ¬fresh r) : Shaped box fresh (dropKept r t) := by
  refine ⟨fun x hx => ?_, fun x b hb hx => ?_⟩
  · have hne : x ≠ r := by
      rintro rfl
      exact hr hx
    rw [dropKept_of_ne hne, h.fresh x hx]
  · rw [dropKept_ptr] at hx ⊢
    exact h.within x b hb hx

/-! ### Acquiring -/

/-- **A fresh resource is acquired**, or not; what it is kept in is there. -/
theorem Shaped.take (h : Shaped box fresh t) (hr : fresh r) (ok : Bool)
    (hbox : ∀ b, box r = some b → (t b).ptr = true) :
    Shaped box (fun x => fresh x ∧ x ≠ r) (take r ok t) := by
  have hnull := h.fresh r hr
  -- whatever is there was there before, and `r` was not
  have hother : ∀ b, (t b).ptr = true → Handles.take r ok t b = t b := by
    intro b hb
    refine take_of_ne ?_ ok t
    rintro rfl
    rw [hnull] at hb
    cases hb
  refine ⟨fun x hx => ?_, fun x b hb hptr => ?_⟩
  · rw [take_of_ne hx.2]
    exact h.fresh x hx.1
  · have hthere : (t b).ptr = true := by
      by_cases hx : x = r
      · exact hbox b (hx ▸ hb)
      · rw [take_of_ne hx] at hptr
        exact h.within x b hb hptr
    rwa [hother b hthere]

theorem even_take (he : (t x).Even) (hr : t r = .null) (ok : Bool) : (take r ok t x).Even := by
  by_cases hx : x = r
  · rw [hx, take, Function.update_self, hr]
    cases ok
    · exact ⟨rfl, Nat.zero_le 1⟩
    · exact ⟨rfl, Nat.le_refl 1⟩
  · rwa [take_of_ne hx]

/-- **Distinct fresh resources are acquired**, up to a call that fails; what they are kept in is there. -/
theorem Shaped.takeAll {calls : List (Option ρ × Bool)} (h : Shaped box fresh t)
    (hnodup : (targets calls).Nodup) (hfresh : ∀ r ∈ targets calls, fresh r)
    (hbox : ∀ r ∈ targets calls, ∀ b, box r = some b → (t b).ptr = true) :
    Shaped box (fun x => fresh x ∧ x ∉ targets calls) (takeAll calls t).2 := by
  induction calls generalizing t fresh with
  | nil => exact h.mono fun _ hx => hx.1
  | cons call calls ih =>
      obtain ⟨r, ok⟩ := call
      cases r with
      | none =>
          rw [Handles.takeAll]
          split
          · exact ih h hnodup hfresh hbox
          · exact h.mono fun _ hx => hx.1
      | some r =>
          have hstep := h.take (hfresh r List.mem_cons_self) ok (hbox r List.mem_cons_self)
          rw [Handles.takeAll]
          split
          · have hnot := List.nodup_cons.mp (show (r :: targets calls).Nodup from hnodup)
            refine (ih hstep hnot.2 (fun x hx => ?_) fun x hx b hb => ?_).mono fun x hx => ?_
            · refine ⟨hfresh x (List.mem_cons_of_mem _ hx), ?_⟩
              rintro rfl
              exact hnot.1 hx
            · have hthere := hbox x (List.mem_cons_of_mem _ hx) b hb
              have hne : b ≠ r := by
                rintro rfl
                rw [h.fresh b (hfresh b List.mem_cons_self)] at hthere
                cases hthere
              rwa [take_of_ne hne]
            · obtain ⟨hne, hmem⟩ := List.ne_and_not_mem_of_not_mem_cons hx.2
              exact ⟨⟨hx.1, hne⟩, hmem⟩
          · exact hstep.mono fun x hx => ⟨hx.1, (List.ne_and_not_mem_of_not_mem_cons hx.2).1⟩

theorem even_takeAll {calls : List (Option ρ × Bool)} (he : (t x).Even) (hnodup : (targets calls).Nodup)
    (hnull : ∀ r ∈ targets calls, t r = .null) : ((takeAll calls t).2 x).Even := by
  induction calls generalizing t with
  | nil => exact he
  | cons call calls ih =>
      obtain ⟨r, ok⟩ := call
      cases r with
      | none =>
          rw [takeAll]
          split
          · exact ih he hnodup hnull
          · exact he
      | some r =>
          have hstep := even_take he (hnull r List.mem_cons_self) ok
          rw [takeAll]
          split
          · have hnot := List.nodup_cons.mp (show (r :: targets calls).Nodup from hnodup)
            refine ih hstep hnot.2 fun s hs => ?_
            rw [take_of_ne (ne_of_mem_of_not_mem hs hnot.1)]
            exact hnull s (List.mem_cons_of_mem _ hs)
          · exact hstep

end Handles
