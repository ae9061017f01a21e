import Mathlib.Data.BitVec
import Rtl812x.Lib.Interleave

/-!
# The mutex with the management firmware

On chips with management firmware the driver shares registers with it, and takes turns by three bytes
behind the out-of-band channel: `ib` is the driver's flag, `oob` the firmware's, and `prio` says that the
driver has to let the firmware go first.  The driver sets its flag and reads the firmware's; as long as
that is set it withdraws while `prio` is set, and looks again.  It does not wait for ever: after 2001
rounds it goes on regardless.

The driver is modelled statement by statement, an access to a byte being one step.  Of the firmware
nothing is known but the handshake: it may do anything in any order, as long as it goes inside only
when its own flag is set and it finds the driver's clear, and clears its flag only on the way out.

* `oobMutexLock`, `oobMutexUnlock` — `rtl8125_oob_mutex_lock` and `rtl8125_oob_mutex_unlock`;
* `Point` — where the driver can be, and what it knows there of the registers;
* `oob_mutex_excludes` — **in every interleaving the two are never inside together, unless the driver
  went in because it had waited in vain**;
* `oob_mutex_lock_returns` — **whatever the firmware does, the lock is over after so many accesses**.
-/

namespace Rtl812x.OobMutex

open Interleave Runs

/-! ### Registers and statements -/

/-- The bytes at `0x114`, `0x110` and `0x11C`, and who is inside. -/
structure OobRegs where
  ib : BitVec 8
  oob : BitVec 8
  prio : BitVec 8
  /-- the driver is inside; it has waited in vain (`true`) or found the firmware's flag clear -/
  ibIn : Option Bool
  /-- the firmware is inside -/
  oobIn : Bool

inductive Side where
  | ib
  | oob
  deriving DecidableEq

inductive Stmt where
  /-- `rtl8125_ocp_write(tp, ocp_reg_mutex_ib, 1, v)` in the lock -/
  | writeIb (v : BitVec 8)
  /-- `reg_16 = rtl8125_ocp_read(tp, ocp_reg_mutex_oob, 1)`, and the test of the outer loop -/
  | readOob (waitCnt0 : ℕ)
  /-- the first `reg_a0 = rtl8125_ocp_read(tp, ocp_reg_mutex_prio, 1)` of a round -/
  | readPrio (waitCnt0 : ℕ)
  /-- the further ones, and the test of the inner loop -/
  | waitPrio (waitCnt0 waitCnt1 : ℕ)
  /-- what the driver does inside -/
  | work
  /-- `rtl8125_ocp_write(tp, ocp_reg_mutex_prio, 1, BIT_0)` of the unlock -/
  | writePrio
  /-- `rtl8125_ocp_write(tp, ocp_reg_mutex_ib, 1, 0x00)` of the unlock -/
  | clearIb
  /-- the firmware writes its flag; clearing it, it is outside -/
  | flag (v : BitVec 8)
  /-- the firmware reads the driver's flag, and goes inside if it may -/
  | enter
  /-- the firmware writes `prio` -/
  | prio (v : BitVec 8)

def Stmt.firmware : Stmt → Bool
  | flag _ | enter | prio _ => true
  | _ => false

/-- `2000`, the bound of both loops. -/
def maxWait : ℕ := 2000

/-- One statement, and the statements it puts in front of the rest. -/
def eval : Stmt → OobRegs → OobRegs × List Stmt
  | .writeIb v, r => ({ r with ib := v }, [])
  | .readOob n, r =>
      -- the counter is tested after the byte is read, so a flag that is clear in the last round counts
      if r.oob = 0 then ({ r with ibIn := some false }, [])
      else if maxWait < n then ({ r with ibIn := some true }, [])
      else (r, [.readPrio n])
  | .readPrio n, r =>
      if r.prio = 0 then (r, [.readOob (n + 1)]) else (r, [.writeIb 0, .waitPrio n 0])
  | .waitPrio n m, r =>
      if r.prio = 0 ∨ maxWait < m then (r, [.writeIb 1, .readOob (n + 1)]) else (r, [.waitPrio n (m + 1)])
  | .work, r => (r, [])
  | .writePrio, r => ({ r with prio := 1 }, [])
  | .clearIb, r => ({ r with ib := 0, ibIn := none }, [])
  | .flag v, r => ({ r with oob := v, oobIn := r.oobIn && v != 0 }, [])
  | .enter, r => ({ r with oobIn := r.oobIn || (r.oob != 0 && r.ib == 0) }, [])
  | .prio v, r => ({ r with prio := v }, [])

/-- `rtl8125_oob_mutex_lock`, on a chip whose firmware is in use. -/
def oobMutexLock : List Stmt := [.writeIb 1, .readOob 0]

/-- `rtl8125_oob_mutex_unlock`. -/
def oobMutexUnlock : List Stmt := [.writePrio, .clearIb]

/-- What is left of a section when `k` statements of it are still to be run. -/
def inside (k : ℕ) : List Stmt := List.replicate k .work ++ oobMutexUnlock

/-- A section of `k` statements between lock and unlock, as `rtl8125_disable_adv_eee` has one. -/
def locked (k : ℕ) : List Stmt := oobMutexLock ++ inside k

/-- The driver is called for a section, the firmware for any program of its own. -/
def Legal (_ : Sys OobRegs Stmt Side) : Move Stmt Side → Prop
  | .run _ => True
  | .call .ib p => ∃ k, p = locked k
  | .call .oob p => ∀ b ∈ p, b.firmware = true

/-- Both are outside, and nothing is under way. -/
def start (ib oob prio : BitVec 8) : Sys OobRegs Stmt Side := ⟨⟨ib, oob, prio, none, false⟩, fun _ => []⟩

/-! ### Program points of the driver -/

/-- Where the driver can be, and what it knows there: of its flag, of being inside, of its counters. -/
inductive Point (ib : BitVec 8) (ibIn : Option Bool) : List Stmt → Prop
  | idle : ibIn = none → Point ib ibIn []
  | claim (n k : ℕ) : ibIn = none → n ≤ maxWait + 1 → Point ib ibIn (.writeIb 1 :: .readOob n :: inside k)
  | look (n k : ℕ) : ibIn = none → n ≤ maxWait + 1 → ib = 1 → Point ib ibIn (.readOob n :: inside k)
  | yield (n k : ℕ) : ibIn = none → n ≤ maxWait → ib = 1 → Point ib ibIn (.readPrio n :: inside k)
  | withdraw (n k : ℕ) : ibIn = none → n ≤ maxWait →
      Point ib ibIn (.writeIb 0 :: .waitPrio n 0 :: inside k)
  | wait (n m k : ℕ) : ibIn = none → n ≤ maxWait → m ≤ maxWait + 1 →
      Point ib ibIn (.waitPrio n m :: inside k)
  | within (k : ℕ) (b : Bool) : ibIn = some b → ib = 1 → Point ib ibIn (inside k)
  | leave (b : Bool) : ibIn = some b → ib = 1 → Point ib ibIn [.clearIb]

/-- Inside, the driver's flag is set. -/
theorem Point.ib_eq {ib : BitVec 8} {b : Bool} {l : List Stmt} (h : Point ib (some b) l) : ib = 1 := by
  cases h with
  | idle h | claim _ _ h | withdraw _ _ h | wait _ _ _ h => exact absurd h (by simp)
  | look _ _ _ _ h | yield _ _ _ _ h | within _ _ _ h | leave _ _ h => exact h

variable {r : OobRegs} {b : Stmt} {l : List Stmt}

/-- A call of the driver starts at a point. -/
theorem point_locked (h : r.ibIn = none) (k : ℕ) : Point r.ib r.ibIn (locked k) :=
  .claim 0 k h (Nat.zero_le _)

/-- **The driver goes from point to point.** -/
theorem Point.eval (h : Point r.ib r.ibIn (b :: l)) :
    Point (eval b r).1.ib (eval b r).1.ibIn ((eval b r).2 ++ l) := by
  generalize hl : b :: l = code at h
  cases h with
  | idle h => exact absurd hl (by simp)
  | claim n k h hn =>
      obtain ⟨rfl, rfl⟩ := List.cons.inj hl
      exact .look n k h hn rfl
  | look n k h hn hib =>
      obtain ⟨rfl, rfl⟩ := List.cons.inj hl
      rw [OobMutex.eval]
      split
      · exact .within k false rfl hib
      split
      · exact .within k true rfl hib
      · exact .yield n k h (by omega) hib
  | yield n k h hn hib =>
      obtain ⟨rfl, rfl⟩ := List.cons.inj hl
      rw [OobMutex.eval]
      split
      · exact .look (n + 1) k h (by omega) hib
      · exact .withdraw n k h hn
  | withdraw n k h hn =>
      obtain ⟨rfl, rfl⟩ := List.cons.inj hl
      exact .wait n 0 k h hn (Nat.zero_le _)
  | wait n m k h hn hm =>
      obtain ⟨rfl, rfl⟩ := List.cons.inj hl
      rw [OobMutex.eval]
      split
      · exact .claim (n + 1) k h (by omega)
      · exact .wait n (m + 1) k h hn (by omega)
  | within k c hin hib =>
      cases k with
      | zero =>
          obtain ⟨rfl, rfl⟩ := List.cons.inj hl
          exact .leave c hin hib
      | succ k =>
          obtain ⟨rfl, rfl⟩ := List.cons.inj hl
          exact .within k c hin hib
  | leave c hin hib =>
      obtain ⟨rfl, rfl⟩ := List.cons.inj hl
      exact .idle rfl

/-- The firmware does not move the driver. -/
theorem eval_firmware (hb : b.firmware = true) :
    (eval b r).1.ib = r.ib ∧ (eval b r).1.ibIn = r.ibIn ∧ (eval b r).2 = [] := by
  cases b with
  | flag | enter | prio => exact ⟨rfl, rfl, rfl⟩
  | _ => exact absurd hb (by simp [Stmt.firmware])

/-! ### Never inside together -/

/-- The firmware is inside only with its flag set, and not while the driver is inside properly. -/
structure Apart (r : OobRegs) : Prop where
  flag : r.oobIn = true → r.oob ≠ 0
  apart : r.ibIn = some false → r.oobIn = false

theorem Apart.eval (h : Apart r) (hpoint : Point r.ib r.ibIn l) (b : Stmt) : Apart (eval b r).1 := by
  obtain ⟨hflag, hapart⟩ := h
  cases b with
  | readOob n =>
      rw [OobMutex.eval]
      split
      · -- the firmware's flag is clear, so the firmware is outside
        rename_i hoob
        refine ⟨hflag, fun _ => ?_⟩
        by_contra hin
        exact hflag (by simpa using hin) hoob
      split
      · exact ⟨hflag, by simp⟩
      · exact ⟨hflag, hapart⟩
  | readPrio n =>
      rw [OobMutex.eval]
      split <;> exact ⟨hflag, hapart⟩
  | waitPrio n m =>
      rw [OobMutex.eval]
      split <;> exact ⟨hflag, hapart⟩
  | writeIb v => exact ⟨hflag, hapart⟩
  | work => exact ⟨hflag, hapart⟩
  | writePrio => exact ⟨hflag, hapart⟩
  | clearIb => exact ⟨hflag, by simp [OobMutex.eval]⟩
  | flag v =>
      refine ⟨fun hin => ?_, fun h => ?_⟩
      · simp only [OobMutex.eval, Bool.and_eq_true] at hin
        have hv : v ≠ 0 := by simpa using hin.2
        exact hv
      · simp [OobMutex.eval, hapart h]
  | enter =>
      refine ⟨fun hin => ?_, fun h => ?_⟩
      · simp only [OobMutex.eval, Bool.or_eq_true, Bool.and_eq_true] at hin
        obtain hin | hin := hin
        · exact hflag hin
        · have hoob : r.oob ≠ 0 := by simpa using hin.1
          exact hoob
      · -- the driver's flag is set, so the firmware finds it set
        have hin : r.ibIn = some false := h
        rw [hin] at hpoint
        simp [OobMutex.eval, hapart hin, hpoint.ib_eq]
  | prio v => exact ⟨hflag, hapart⟩

/-- What every step keeps. -/
structure Inv (s : Sys OobRegs Stmt Side) : Prop where
  apart : Apart s.shared
  driver : Point s.shared.ib s.shared.ibIn (s.code .ib)
  firmware : ∀ b ∈ s.code .oob, b.firmware = true

theorem Inv.step {s : Sys OobRegs Stmt Side} (h : Inv s) (m : Move Stmt Side) (hm : Legal s m) :
    Inv (s.step eval m) := by
  apply Sys.step_keeps h
  · intro t b k _ hcode
    refine ⟨h.apart.eval h.driver b, ?_, ?_⟩
    · cases t with
      | ib =>
          rw [Sys.after_code_self]
          exact (hcode ▸ h.driver).eval
      | oob =>
          obtain ⟨hib, hin, -⟩ := eval_firmware (r := s.shared) (h.firmware b (by rw [hcode]; simp))
          rw [Sys.after_code_of_ne (by decide)]
          exact hib ▸ hin ▸ h.driver
    · cases t with
      | ib =>
          rw [Sys.after_code_of_ne (by decide)]
          exact h.firmware
      | oob =>
          obtain ⟨-, -, hnone⟩ := eval_firmware (r := s.shared) (h.firmware b (by rw [hcode]; simp))
          rw [Sys.after_code_self, hnone]
          intro c hc
          exact h.firmware c (by rw [hcode]; exact List.mem_cons_of_mem b hc)
  · intro t p heq hidle
    subst heq
    cases t with
    | ib =>
        obtain ⟨k, rfl⟩ := hm
        have hnone : s.shared.ibIn = none := by
          have := h.driver
          rw [hidle] at this
          generalize hl : ([] : List Stmt) = code at this
          cases this with
          | idle h => exact h
          | within k => exact absurd hl (by simp [inside, oobMutexUnlock])
          | _ => exact absurd hl (by simp)
        refine ⟨h.apart, ?_, h.firmware⟩
        show Point s.shared.ib s.shared.ibIn (Function.update s.code Side.ib (locked k) Side.ib)
        rw [Function.update_self]
        exact point_locked hnone k
    | oob =>
        refine ⟨h.apart, h.driver, ?_⟩
        show ∀ b ∈ Function.update s.code Side.oob p Side.oob, b.firmware = true
        rw [Function.update_self]
        exact hm

theorem inv_start (ib oob prio : BitVec 8) : Inv (start ib oob prio) :=
  ⟨⟨by simp [start], by simp [start]⟩, .idle rfl, by simp [start]⟩

/-- **Mutual exclusion**: whatever the bytes are at first, in every interleaving of the driver's
statements with those of a firmware that keeps to the handshake, the two are inside together only if the
driver went in because it had waited in vain. -/
theorem oob_mutex_excludes (ib oob prio : BitVec 8) (moves : List (Move Stmt Side))
    (h : Along (Sys.step eval) Legal (start ib oob prio) moves) :
    let r := (exec (Sys.step eval) (start ib oob prio) moves).shared
    r.oobIn = true → r.ibIn ≠ none → r.ibIn = some true := by
  intro r hoob hin
  have hinv : Inv (exec (Sys.step eval) (start ib oob prio) moves) :=
    invariant_along (fun s m hs hm => hs.step m hm) (inv_start ib oob prio) h
  cases hr : r.ibIn with
  | none => exact absurd hr hin
  | some c =>
      cases c with
      | true => rfl
      | false => exact absurd hoob (by rw [hinv.apart.apart hr]; decide)

/-- The firmware is inside, and the driver finds that it is. -/
theorem oob_mutex_excludes_waiting :
    let moves : List (Move Stmt Side) :=
      [.call .oob [.flag 1, .enter], .run .oob, .run .oob, .call .ib (locked 0), .run .ib, .run .ib]
    let r := (exec (Sys.step eval) (start 0 0 0) moves).shared
    r.oobIn = true ∧ r.ib = 1 ∧ (r.ibIn ≠ none → r.ibIn = some true) := by
  intro moves r
  have hlegal : Along (Sys.step eval) Legal (start 0 0 0) moves :=
    ⟨by simp [Legal, Stmt.firmware], trivial, trivial, ⟨0, rfl⟩, trivial, trivial, trivial⟩
  have hin : r.oobIn = true := by decide
  exact ⟨hin, by decide, oob_mutex_excludes 0 0 0 moves hlegal hin⟩

/-! ### The lock returns -/

/-- The accesses of one round of the outer loop at the most: two reads, two writes, and the inner loop. -/
def roundSteps : ℕ := maxWait + 6

/-- How many accesses the driver makes before it is inside, at the most. -/
def rank : List Stmt → ℕ
  | .writeIb _ :: .readOob n :: _ => (maxWait + 1 - n) * roundSteps + 2
  | .readOob n :: _ => (maxWait + 1 - n) * roundSteps + 1
  | .readPrio n :: _ => (maxWait + 1 - n) * roundSteps
  | .writeIb _ :: .waitPrio n _ :: _ => (maxWait - n) * roundSteps + (maxWait + 5)
  | .waitPrio n m :: _ => (maxWait - n) * roundSteps + 2 + (maxWait + 2 - m)
  | _ => 0

/-- The accesses of a lock, at the most: 2001 rounds of 2006, and the two that come first. -/
def lockSteps : ℕ := (maxWait + 1) * roundSteps + 2

theorem rank_locked (k : ℕ) : rank (locked k) = lockSteps := rfl

theorem rounds_succ {n : ℕ} (h : n ≤ maxWait) :
    (maxWait + 1 - n) * roundSteps = (maxWait - n) * roundSteps + roundSteps := by
  rw [show maxWait + 1 - n = maxWait - n + 1 by omega, Nat.succ_mul]

/-- **Every statement of the lock brings its end nearer**, and it ends inside. -/
theorem Point.rank_lt (h : Point r.ib none (b :: l)) :
    (OobMutex.eval b r).2 ++ l ≠ [] ∧
      ((OobMutex.eval b r).1.ibIn = none → rank ((OobMutex.eval b r).2 ++ l) < rank (b :: l)) := by
  have hround : roundSteps = maxWait + 6 := rfl
  generalize hl : b :: l = code at h
  cases h with
  | idle h => exact absurd hl (by simp)
  | claim n k h hn =>
      obtain ⟨rfl, rfl⟩ := List.cons.inj hl
      refine ⟨by simp [OobMutex.eval], fun _ => ?_⟩
      simp [OobMutex.eval, rank]
  | look n k h hn hib =>
      obtain ⟨rfl, rfl⟩ := List.cons.inj hl
      refine ⟨by simp [inside, oobMutexUnlock], ?_⟩
      rw [OobMutex.eval]
      split
      · simp
      split
      · simp
      · simp [rank]
  | yield n k h hn hib =>
      obtain ⟨rfl, rfl⟩ := List.cons.inj hl
      refine ⟨by simp [inside, oobMutexUnlock], fun _ => ?_⟩
      have := rounds_succ hn
      rw [OobMutex.eval]
      split
      · simp only [List.cons_append, List.nil_append, rank, Nat.add_sub_add_right]
        omega
      · simp only [List.cons_append, List.nil_append, rank]
        omega
  | withdraw n k h hn =>
      obtain ⟨rfl, rfl⟩ := List.cons.inj hl
      refine ⟨by simp [OobMutex.eval], fun _ => ?_⟩
      simp only [OobMutex.eval, List.nil_append, rank]
      omega
  | wait n m k h hn hm =>
      obtain ⟨rfl, rfl⟩ := List.cons.inj hl
      refine ⟨by simp [inside, oobMutexUnlock], fun _ => ?_⟩
      rw [OobMutex.eval]
      split
      · simp only [List.cons_append, List.nil_append, rank, Nat.add_sub_add_right]
        omega
      · simp only [List.cons_append, List.nil_append, rank]
        omega
  | within k c h => exact absurd h (by simp)
  | leave c h => exact absurd h (by simp)

/-- A move that is not the driver's leaves the driver's code as it is. -/
theorem code_step_other {s : Sys OobRegs Stmt Side} (hcode : s.code .ib ≠ []) {m : Move Stmt Side}
    (hm : m ≠ .run .ib) : (s.step eval m).code .ib = s.code .ib := by
  cases m with
  | run t =>
      cases t with
      | ib => exact absurd rfl hm
      | oob =>
          cases hc : s.code .oob with
          | nil => rw [Sys.step_run_idle hc]
          | cons b k => rw [Sys.step_run hc, Sys.after_code_of_ne (by decide)]
  | call t p =>
      cases t with
      | ib => rw [Sys.step_call_busy hcode]
      | oob =>
          by_cases hc : s.code .oob = []
          · rw [Sys.step_call hc]
            rfl
          · rw [Sys.step_call_busy hc]

theorem Point.rank_pos {ib : BitVec 8} (h : Point ib none l) (hl : l ≠ []) : 0 < rank l := by
  have hround : roundSteps = maxWait + 6 := rfl
  cases h with
  | idle h => exact absurd rfl hl
  | claim n k h hn => simp [rank]
  | look n k h hn hib => simp [rank]
  | yield n k h hn hib =>
      have := rounds_succ hn
      simp only [rank]
      omega
  | withdraw n k h hn =>
      simp only [rank]
      omega
  | wait n m k h hn hm =>
      simp only [rank]
      omega
  | within k c h => exact absurd h (by simp)
  | leave c h => exact absurd h (by simp)

/-- A step of the driver. -/
def driverMove : Move Stmt Side → Bool
  | .run .ib => true
  | _ => false

/-- With enough steps of its own, the driver gets inside. -/
theorem inside_of_rank {moves : List (Move Stmt Side)} {s : Sys OobRegs Stmt Side} (hs : Inv s)
    (hcode : s.code .ib ≠ []) (h : Along (Sys.step eval) Legal s moves)
    (hcount : rank (s.code .ib) ≤ moves.countP driverMove) :
    ∃ j, (exec (Sys.step eval) s (moves.take j)).shared.ibIn ≠ none := by
  induction moves generalizing s with
  | nil =>
      refine ⟨0, fun hin => ?_⟩
      have hpoint := hs.driver
      rw [show s.shared.ibIn = none from hin] at hpoint
      exact absurd (hpoint.rank_pos hcode) (by simpa using hcount)
  | cons m moves ih =>
      by_cases hin : s.shared.ibIn = none
      case neg => exact ⟨0, hin⟩
      have hs' := hs.step m h.1
      by_cases hin' : (s.step eval m).shared.ibIn = none
      case neg => exact ⟨1, hin'⟩
      suffices hnext : (s.step eval m).code .ib ≠ [] ∧
          rank ((s.step eval m).code .ib) ≤ moves.countP driverMove by
        obtain ⟨j, hj⟩ := ih hs' hnext.1 h.2 hnext.2
        exact ⟨j + 1, hj⟩
      by_cases hm : m = .run .ib
      · subst hm
        obtain ⟨b, l, hbl⟩ := List.exists_cons_of_ne_nil hcode
        have hpoint := hs.driver
        rw [hin, hbl] at hpoint
        obtain ⟨hne, hlt⟩ := hpoint.rank_lt
        rw [Sys.step_run hbl] at hin' ⊢
        rw [List.countP_cons_of_pos rfl, hbl] at hcount
        rw [Sys.after_code_self]
        have := hlt hin'
        exact ⟨hne, by omega⟩
      · have hother : driverMove m = false := by
          cases m with
          | run t =>
              cases t with
              | ib => exact absurd rfl hm
              | oob => rfl
          | call t p => rfl
        rw [code_step_other hcode hm]
        rw [List.countP_cons_of_neg (by rw [hother]; decide)] at hcount
        exact ⟨hcode, hcount⟩

/-- **The lock returns**: whenever the driver is called, and whatever the firmware does and however its
statements fall among the driver's, the driver is inside before it has made `lockSteps` accesses. -/
theorem oob_mutex_lock_returns (ib oob prio : BitVec 8) (before after : List (Move Stmt Side)) (k : ℕ)
    (h : Along (Sys.step eval) Legal (start ib oob prio) (before ++ .call .ib (locked k) :: after))
    (hidle : (exec (Sys.step eval) (start ib oob prio) before).code .ib = [])
    (hcount : lockSteps ≤ after.countP driverMove) :
    ∃ j, (exec (Sys.step eval) (start ib oob prio)
      (before ++ .call .ib (locked k) :: after.take j)).shared.ibIn ≠ none := by
  obtain ⟨hbefore, hcall, hafter⟩ := (along_append _ _ _ before _).mp h
  set s := exec (Sys.step eval) (start ib oob prio) before
  have hinv : Inv s := invariant_along (fun s m hs hm => hs.step m hm) (inv_start ib oob prio) hbefore
  have hinv' := hinv.step _ hcall
  have hcode : (s.step eval (.call .ib (locked k))).code .ib = locked k := by
    rw [Sys.step_call hidle]
    show Function.update s.code Side.ib (locked k) Side.ib = _
    rw [Function.update_self]
  obtain ⟨j, hj⟩ := inside_of_rank hinv' (by rw [hcode]; simp [locked, oobMutexLock]) hafter
    (by rw [hcode, rank_locked]; exact hcount)
  refine ⟨j, ?_⟩
  rw [exec_append]
  exact hj

theorem along_replicate (s : Sys OobRegs Stmt Side) (n : ℕ) :
    Along (Sys.step eval) Legal s (List.replicate n (.run .ib)) := by
  induction n generalizing s with
  | zero => exact trivial
  | succ n ih => exact ⟨trivial, ih _⟩

/-- A firmware that sets its flag and never clears it. -/
theorem oob_mutex_lock_returns_stuck :
    ∃ j, (exec (Sys.step eval) (start 0 0 0) ([.call .oob [.flag 1], .run .oob] ++
      .call .ib (locked 0) :: (List.replicate lockSteps (.run .ib)).take j)).shared.ibIn ≠ none := by
  refine oob_mutex_lock_returns 0 0 0 [.call .oob [.flag 1], .run .oob] (List.replicate lockSteps (.run .ib)) 0
    ⟨by simp [Legal, Stmt.firmware], trivial, ⟨0, rfl⟩, along_replicate _ _⟩ rfl ?_
  rw [List.countP_replicate]
  exact le_refl _

end Rtl812x.OobMutex
