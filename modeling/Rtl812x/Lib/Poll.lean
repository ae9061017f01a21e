import Mathlib.Data.Nat.Basic

/-!
# Waiting for a device

A device takes a command and works on it for a while.  Whoever gave the command looks at the device
again and again, for at most a number of times, until it shows that it is done.

`Dev σ` is such a device: what it shows now, what it will show when it is done, how many looks still find
it at work, and how long it will take for the commands to come.  How long it takes is its own affair; a
device that is never slower than the bound of whoever waits is `Prompt`.

* `Dev.start`, `Dev.look`, `Dev.poll` — give a command, look once, look until a test holds;
* `Dev.poll_eq` — **waiting for a prompt device ends with the command done**;
* `Dev.Holds` — a prompt device with nothing under way, and what it holds; `Prompt.holds_poll` — **waiting
  for a command leaves it so**.
-/

namespace Poll

variable {σ τ : Type*}

structure Dev (σ : Type*) where
  now : σ
  /-- what the device shows when it is done -/
  next : σ
  /-- how many looks still find it at work -/
  left : ℕ
  /-- how long it takes for the commands to come -/
  lat : ℕ → ℕ

namespace Dev

/-- A command: the device shows `now` while it works and `next` when it is done. -/
def start (d : Dev σ) (now next : σ) : Dev σ := ⟨now, next, d.lat 0, fun n => d.lat (n + 1)⟩

/-- Some time passes, and one looks at `now`. -/
def look (d : Dev σ) : Dev σ :=
  match d.left with
  | 0 => { d with now := d.next }
  | n + 1 => { d with left := n }

/-- Look at most `n` times, until the test holds. -/
def poll (test : σ → Bool) : ℕ → Dev σ → Dev σ
  | 0, d => d
  | n + 1, d => if test d.look.now then d.look else poll test n d.look

/-- Every command is done before `n` looks are over. -/
def Prompt (n : ℕ) (d : Dev σ) : Prop := ∀ k, d.lat k < n

/-- Nothing is under way, the device is prompt, and what it shows of itself is `t`. -/
structure Holds (n : ℕ) (view : σ → τ) (t : τ) (d : Dev σ) : Prop where
  left : d.left = 0
  next : d.next = d.now
  prompt : d.Prompt n
  view : view d.now = t

/-- What the device is when its command is done. -/
def done (d : Dev σ) : Dev σ := ⟨d.next, d.next, 0, d.lat⟩

/-- **Waiting ends with the command done**, if the device is done in time and the test tells. -/
theorem poll_eq {test : σ → Bool} {n : ℕ} {d : Dev σ} (hleft : d.left < n)
    (hnow : test d.now = false) (hnext : test d.next = true) : d.poll test n = d.done := by
  induction n generalizing d with
  | zero => exact absurd hleft (Nat.not_lt_zero _)
  | succ n ih =>
      obtain ⟨now, next, left, lat⟩ := d
      cases left with
      | zero => exact if_pos hnext
      | succ left =>
          rw [poll, look, if_neg (by rw [hnow]; exact Bool.false_ne_true)]
          exact ih (Nat.lt_of_succ_lt_succ hleft) hnow hnext

variable {d : Dev σ} {m n : ℕ} {now next : σ}

/-- A command given to a prompt device, and the wait for it. -/
theorem Prompt.poll_start {test : σ → Bool} (h : d.Prompt n) (hm : n ≤ m) (hnow : test now = false)
    (hnext : test next = true) : (d.start now next).poll test m = (d.start now next).done :=
  poll_eq (Nat.lt_of_lt_of_le (h 0) hm) hnow hnext

/-- **A command carried out**: the device is idle again and shows what the command made of it. -/
theorem Prompt.holds_poll {test : σ → Bool} (h : d.Prompt n) (hm : n ≤ m) (hnow : test now = false)
    (hnext : test next = true) : ((d.start now next).poll test m).Holds n id next := by
  rw [h.poll_start hm hnow hnext]
  exact ⟨rfl, rfl, fun k => h (k + 1), rfl⟩

/-- A part of what it shows. -/
theorem Holds.part {s : σ} (h : d.Holds n id s) (view : σ → τ) : d.Holds n view (view s) :=
  ⟨h.left, h.next, h.prompt, congrArg view h.view⟩

end Dev

end Poll
