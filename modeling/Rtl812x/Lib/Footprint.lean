import Mathlib.Data.List.Basic
import Mathlib.Logic.Function.Basic

/-!
# The footprint of a program on a memory

A program over a memory `ℕ → β` is run from a memory to a result, the memory it leaves, and the
offsets it has read or written, oldest first.  Erasing the footprint gives the function the program
computes; what the footprint adds is where the computation looks, which a function of the whole memory
does not say.

* `Prog`, `read`, `write` — programs, with the monad that concatenates the footprints;
* `fold` / `fold_run` — a loop over a list whose rounds only read;
* `Inside S p m` — run from `m`, the program touches offsets in `S` only, with one lemma for each way
  a program is built.
-/

namespace Footprint

/-- The result of a run, the memory it leaves, and the offsets it touched. -/
structure Outcome (β α : Type) where
  value : α
  mem : ℕ → β
  touched : List ℕ

structure Prog (β α : Type) where
  run : (ℕ → β) → Outcome β α

variable {β α γ ι : Type}

instance : Monad (Prog β) where
  pure a := ⟨fun m => ⟨a, m, []⟩⟩
  bind p f := ⟨fun m =>
    let r := p.run m
    let r' := (f r.value).run r.mem
    ⟨r'.value, r'.mem, r.touched ++ r'.touched⟩⟩

def read (i : ℕ) : Prog β β := ⟨fun m => ⟨m i, m, [i]⟩⟩

def write (i : ℕ) (b : β) : Prog β Unit := ⟨fun m => ⟨(), Function.update m i b, [i]⟩⟩

@[simp] theorem pure_run (a : α) (m : ℕ → β) : (pure a : Prog β α).run m = ⟨a, m, []⟩ := rfl

@[simp] theorem read_run (i : ℕ) (m : ℕ → β) : (read i).run m = ⟨m i, m, [i]⟩ := rfl

@[simp] theorem bind_run (p : Prog β α) (f : α → Prog β γ) (m : ℕ → β) :
    (p >>= f).run m =
      ⟨((f (p.run m).value).run (p.run m).mem).value, ((f (p.run m).value).run (p.run m).mem).mem,
        (p.run m).touched ++ ((f (p.run m).value).run (p.run m).mem).touched⟩ := rfl

/-! ### Loops -/

/-- Run the rounds of a loop over a list, each from what the last one returned. -/
def fold (f : α → ι → Prog β α) : α → List ι → Prog β α
  | a, [] => pure a
  | a, i :: is => f a i >>= fun a' => fold f a' is

/-- A loop whose rounds read a fixed stretch and leave the memory alone. -/
theorem fold_run {f : α → ι → Prog β α} {g : α → ι → α} {stretch : ι → List ℕ} {m : ℕ → β}
    (hf : ∀ a i, (f a i).run m = ⟨g a i, m, stretch i⟩) (a : α) (is : List ι) :
    (fold f a is).run m = ⟨is.foldl g a, m, is.flatMap stretch⟩ := by
  induction is generalizing a with
  | nil => rfl
  | cons i is ih =>
      rw [fold, bind_run, hf]
      simp only [ih, List.foldl_cons, List.flatMap_cons]

/-! ### Staying inside a set of offsets -/

/-- Run from `m`, the program touches offsets in `S` only. -/
def Inside (S : ℕ → Prop) (p : Prog β α) (m : ℕ → β) : Prop := ∀ i ∈ (p.run m).touched, S i

variable {S : ℕ → Prop} {m : ℕ → β}

@[simp] theorem inside_pure (a : α) : Inside S (pure a : Prog β α) m := by
  intro i hi
  cases hi

@[simp] theorem inside_read (i : ℕ) : Inside S (read i) m ↔ S i := List.forall_mem_singleton

@[simp] theorem inside_write (i : ℕ) (b : β) : Inside S (write i b) m ↔ S i := List.forall_mem_singleton

@[simp] theorem inside_bind (p : Prog β α) (f : α → Prog β γ) :
    Inside S (p >>= f) m ↔ Inside S p m ∧ Inside S (f (p.run m).value) (p.run m).mem :=
  List.forall_mem_append

theorem inside_ite (c : Prop) [Decidable c] (p q : Prog β α) :
    Inside S (if c then p else q) m ↔ (c → Inside S p m) ∧ (¬ c → Inside S q m) := by
  split <;> simp [*]

end Footprint
