import Mathlib.Algebra.Group.Nat.Defs
import Rtl812x.Lib.Loop
import Rtl812x.Hw.Firmware

/-!
# The firmware interpreter

The actions of a firmware image are a small program: reads and writes of registers of the PHY or of the
MAC, a value that is carried from one to the next, and jumps.  `rtl8125_fw_data_ok` checks the program,
`rtl8125_fw_write_firmware` runs it.  The interpreter keeps its place in a `size_t`, and a jump back wraps
round before the loop adds one.

* `dataOk`, `writeFirmware` — the two functions; the registers are any device (`Device`);
* `next_of_ok` — one action of a checked program: the place wraps round to what the jump says, and that
  is a place in the program;
* `checked_run_ends` — **a run ends** after one lap more than it takes jumps back;
* `self_jump_hangs` — which the check does not bound: a jump back to itself passes it;
* `accepted_image_run_stays` — **every run of an accepted image stays in the image**, on any device and
  whatever its actions read.
-/

namespace Rtl812x.Firmware

open Loop

/-! ### Actions -/

inductive Opcode where
  | read
  | dataOr
  | dataAnd
  | bjmpn
  | mdioChg
  | clearReadcount
  | write
  | readcountEqSkip
  | compEqSkipn
  | compNeqSkipn
  | writePrevious
  | skipn
  | delayMs
  deriving DecidableEq, Repr

/-- `action >> 28`. -/
def opcodeOf (action : BitVec 32) : Option Opcode :=
  match (action >>> 28).toNat with
  | 0x0 => some .read
  | 0x1 => some .dataOr
  | 0x2 => some .dataAnd
  | 0x3 => some .bjmpn
  | 0x4 => some .mdioChg
  | 0x7 => some .clearReadcount
  | 0x8 => some .write
  | 0x9 => some .readcountEqSkip
  | 0xa => some .compEqSkipn
  | 0xb => some .compNeqSkipn
  | 0xc => some .writePrevious
  | 0xd => some .skipn
  | 0xe => some .delayMs
  | _ => none

def dataOf (action : BitVec 32) : BitVec 32 := action &&& 0x0000ffff

def regnoOf (action : BitVec 32) : BitVec 32 := (action &&& 0x0fff0000) >>> 16

/-! ### The check -/

/-- One round of the loop of the check. -/
def actionOk (size index : ℕ) (action : BitVec 32) : Bool :=
  match opcodeOf action with
  | some .read | some .dataOr | some .dataAnd | some .clearReadcount | some .write | some .writePrevious
  | some .delayMs => true
  | some .mdioChg => !decide (1 < dataOf action)
  | some .bjmpn => !decide (index < (regnoOf action).toNat)
  | some .readcountEqSkip => !decide (size ≤ index + 2)
  | some .compEqSkipn | some .compNeqSkipn | some .skipn =>
      !decide (size ≤ index + 1 + (regnoOf action).toNat)
  | none => false

/-- `rtl8125_fw_data_ok`. -/
def dataOk (code : List (BitVec 32)) : Bool :=
  code.zipIdx.all fun p => actionOk code.length p.2 p.1

/-! ### The interpreter -/

/-- `rtl_fw->phy_read`, `rtl_fw->mac_mcu_read`, `rtl_fw->phy_write` and `rtl_fw->mac_mcu_write`. -/
structure Device (σ : Type) where
  read : Bool → BitVec 16 → σ → BitVec 32 × σ
  write : Bool → BitVec 16 → BitVec 16 → σ → σ

/-- The variables of the interpreter, and the device. -/
structure Machine (σ : Type) where
  index : BitVec 64
  predata : BitVec 32
  count : BitVec 32
  /-- `fw_write` and `fw_read` are those of the MAC -/
  mac : Bool
  dev : σ

section Interpreter

variable {σ : Type} (D : Device σ) (code : List (BitVec 32))

/-- The switch. -/
def act (action : BitVec 32) (m : Machine σ) : Machine σ :=
  let data := dataOf action
  let regno := regnoOf action
  match opcodeOf action with
  | some .read =>
      let r := D.read m.mac (regno.setWidth 16) m.dev
      { m with predata := r.1, count := m.count + 1, dev := r.2 }
  | some .dataOr => { m with predata := m.predata ||| data }
  | some .dataAnd => { m with predata := m.predata &&& data }
  | some .bjmpn => { m with index := m.index - (regno + 1).setWidth 64 }
  | some .mdioChg => { m with mac := data != 0 }
  | some .clearReadcount => { m with count := 0 }
  | some .write => { m with dev := D.write m.mac (regno.setWidth 16) (data.setWidth 16) m.dev }
  | some .readcountEqSkip => if m.count = data then { m with index := m.index + 1 } else m
  | some .compEqSkipn => if m.predata = data then { m with index := m.index + regno.setWidth 64 } else m
  | some .compNeqSkipn => if m.predata ≠ data then { m with index := m.index + regno.setWidth 64 } else m
  | some .writePrevious =>
      { m with dev := D.write m.mac (regno.setWidth 16) (m.predata.setWidth 16) m.dev }
  | some .skipn => { m with index := m.index + regno.setWidth 64 }
  | some .delayMs => m
  | none => m

/-- `pa->code[index]`. -/
def actionAt (i : ℕ) : BitVec 32 := code.getD i 0

/-- The loop goes on: the place is in the program, and its action is not the one that ends it. -/
def running (m : Machine σ) : Bool :=
  decide (m.index.toNat < code.length) && actionAt code m.index.toNat != 0

/-- One round of the loop. -/
def step (m : Machine σ) : Machine σ :=
  let m := act D (actionAt code m.index.toNat) m
  { m with index := m.index + 1 }

def start (dev : σ) : Machine σ := ⟨0, 0, 0, false, dev⟩

/-- `rtl8125_fw_write_firmware`, for at most `fuel` rounds. -/
def writeFirmware (fuel : ℕ) (dev : σ) : Option (Machine σ) :=
  whileFuel (running code) (step D code) fuel (start dev)

end Interpreter

/-! ### One action -/

/-- Where the interpreter goes from the place `pc`: the actions as they are meant. -/
def next {σ : Type} (action : BitVec 32) (m : Machine σ) (pc : ℕ) : ℕ :=
  let regno := (regnoOf action).toNat
  match opcodeOf action with
  | some .bjmpn => pc - regno
  | some .readcountEqSkip => if m.count = dataOf action then pc + 2 else pc + 1
  | some .compEqSkipn => if m.predata = dataOf action then pc + 1 + regno else pc + 1
  | some .compNeqSkipn => if m.predata ≠ dataOf action then pc + 1 + regno else pc + 1
  | some .skipn => pc + 1 + regno
  | _ => pc + 1

section Step

variable {σ : Type} {D : Device σ} {code : List (BitVec 32)} {action : BitVec 32} {m : Machine σ} {pc size : ℕ}

theorem regnoOf_lt (action : BitVec 32) : (regnoOf action).toNat < 2 ^ 12 := by
  rw [regnoOf, BitVec.toNat_ushiftRight, BitVec.toNat_and, Nat.shiftRight_eq_div_pow]
  have : action.toNat &&& (0x0fff0000 : BitVec 32).toNat ≤ 0x0fff0000 := Nat.and_le_right
  omega

/-- The place after a skip, which nothing wraps. -/
theorem toNat_skip (action : BitVec 32) (hm : m.index.toNat = pc) (hpc : pc < 2 ^ 62) :
    (m.index + (regnoOf action).setWidth 64 + 1).toNat = pc + 1 + (regnoOf action).toNat := by
  have := regnoOf_lt action
  rw [BitVec.toNat_add, BitVec.toNat_add, BitVec.toNat_setWidth, hm, show (1 : BitVec 64).toNat = 1 from rfl]
  omega

theorem toNat_succ (hm : m.index.toNat = pc) (hpc : pc < 2 ^ 62) : (m.index + 1).toNat = pc + 1 := by
  rw [BitVec.toNat_add, hm, show (1 : BitVec 64).toNat = 1 from rfl]
  omega

/-- The place after a jump back: the subtraction takes one too much, which may wrap round, and the loop
adds it again. -/
theorem toNat_back (hm : m.index.toNat = pc) (hpc : pc < 2 ^ 62) (hle : (regnoOf action).toNat ≤ pc) :
    (m.index - (regnoOf action + 1).setWidth 64 + 1).toNat = pc - (regnoOf action).toNat := by
  have := regnoOf_lt action
  rw [BitVec.toNat_add, BitVec.toNat_sub, BitVec.toNat_setWidth, BitVec.toNat_add, hm,
    show (1 : BitVec 64).toNat = 1 from rfl, show (1 : BitVec 32).toNat = 1 from rfl]
  omega

/-- An action that jumps nowhere. -/
theorem next_eq_succ (D : Device σ) (m : Machine σ) (pc : ℕ) (hop : ∀ op, opcodeOf action = some op →
      op ≠ .bjmpn ∧ op ≠ .readcountEqSkip ∧ op ≠ .compEqSkipn ∧ op ≠ .compNeqSkipn ∧ op ≠ .skipn) :
    next action m pc = pc + 1 ∧ (act D action m).index = m.index := by
  cases hc : opcodeOf action with
  | none => simp [next, act, hc]
  | some op =>
      obtain ⟨h1, h2, h3, h4, h5⟩ := hop op hc
      cases op with
      | bjmpn => exact absurd rfl h1
      | readcountEqSkip => exact absurd rfl h2
      | compEqSkipn => exact absurd rfl h3
      | compNeqSkipn => exact absurd rfl h4
      | skipn => exact absurd rfl h5
      | _ => simp [next, act, hc]

/-- **One action of a checked program**: the place wraps round to what the action says, and that is the
place after it, or an action of the program. -/
theorem next_of_ok (hok : actionOk size pc action = true) (hm : m.index.toNat = pc) (hpc : pc < size)
    (hsize : size ≤ 2 ^ 62) :
    ((act D action m).index + 1).toNat = next action m pc ∧
      (next action m pc = pc + 1 ∨ next action m pc < size) := by
  have hsucc := toNat_succ hm (by omega)
  have hskip := toNat_skip action hm (by omega)
  by_cases hop : ∀ op, opcodeOf action = some op →
      op ≠ .bjmpn ∧ op ≠ .readcountEqSkip ∧ op ≠ .compEqSkipn ∧ op ≠ .compNeqSkipn ∧ op ≠ .skipn
  · obtain ⟨hnext, hindex⟩ := next_eq_succ D m pc hop
    rw [hnext, hindex]
    exact ⟨hsucc, Or.inl rfl⟩
  · push Not at hop
    obtain ⟨op, hc, hjump⟩ := hop
    rw [actionOk, hc] at hok
    rw [next, act, hc]
    cases op with
    | bjmpn =>
        have hle : ¬ pc < (regnoOf action).toNat := by simpa using hok
        exact ⟨toNat_back hm (by omega) (by omega), Or.inr (by show pc - _ < _; omega)⟩
    | readcountEqSkip =>
        have hlt : ¬ size ≤ pc + 2 := by simpa using hok
        dsimp only
        split
        · refine ⟨?_, Or.inr (by omega)⟩
          rw [BitVec.toNat_add, hsucc, show (1 : BitVec 64).toNat = 1 from rfl]
          omega
        · exact ⟨hsucc, Or.inl rfl⟩
    | compEqSkipn =>
        have hlt : ¬ size ≤ pc + 1 + (regnoOf action).toNat := by simpa using hok
        dsimp only
        split
        · exact ⟨hskip, Or.inr (by omega)⟩
        · exact ⟨hsucc, Or.inl rfl⟩
    | compNeqSkipn =>
        have hlt : ¬ size ≤ pc + 1 + (regnoOf action).toNat := by simpa using hok
        dsimp only
        split
        · exact ⟨hskip, Or.inr (by omega)⟩
        · exact ⟨hsucc, Or.inl rfl⟩
    | skipn =>
        have hlt : ¬ size ≤ pc + 1 + (regnoOf action).toNat := by simpa using hok
        exact ⟨hskip, Or.inr (by show pc + 1 + _ < _; omega)⟩
    | _ => simp at hjump

/-- Only a jump back does not go forward. -/
theorem lt_next (hop : opcodeOf action ≠ some .bjmpn) (m : Machine σ) (pc : ℕ) : pc < next action m pc := by
  rw [next]
  cases hc : opcodeOf action with
  | none => exact Nat.lt_succ_self pc
  | some op =>
      cases op with
      | bjmpn => exact absurd hc hop
      | readcountEqSkip => dsimp only; split <;> omega
      | compEqSkipn => dsimp only; split <;> omega
      | compNeqSkipn => dsimp only; split <;> omega
      | skipn => dsimp only; omega
      | _ => exact Nat.lt_succ_self pc

end Step

/-! ### Runs -/

section Run

variable {σ : Type} (D : Device σ) (code : List (BitVec 32)) (dev : σ)

/-- The interpreter after `n` rounds. -/
def after (n : ℕ) : Machine σ := (step D code)^[n] (start dev)

/-- The place after `n` rounds, as a number. -/
def place (n : ℕ) : ℕ := (after D code dev n).index.toNat

/-- The loop was still going on in each of the first `n` rounds. -/
def RunsFor (n : ℕ) : Prop := ∀ j < n, running code (after D code dev j) = true

/-- Round `n` is a jump back. -/
def JumpsBack (n : ℕ) : Prop := opcodeOf (actionAt code (place D code dev n)) = some .bjmpn

instance : DecidablePred (JumpsBack D code dev) := fun _ => inferInstanceAs (Decidable (_ = _))

variable {D code dev} {n : ℕ}

theorem after_succ : after D code dev (n + 1) = step D code (after D code dev n) :=
  Function.iterate_succ_apply' ..

theorem actionOk_of_dataOk (hok : dataOk code = true) {i : ℕ} (hi : i < code.length) :
    actionOk code.length i (actionAt code i) = true := by
  simp only [dataOk, List.all_eq_true, Prod.forall] at hok
  have hmem : (actionAt code i, i) ∈ code.zipIdx := by
    simp [List.mem_zipIdx_iff_getElem?, actionAt, hi]
  exact hok _ _ hmem

theorem running_iff {m : Machine σ} :
    running code m = true ↔ m.index.toNat < code.length ∧ actionAt code m.index.toNat ≠ 0 := by
  simp [running]

/-- One round of a checked program. -/
theorem place_succ (hok : dataOk code = true) (hsize : code.length ≤ 2 ^ 62)
    (hrun : running code (after D code dev n) = true) :
    place D code dev (n + 1)
        = next (actionAt code (place D code dev n)) (after D code dev n) (place D code dev n) ∧
      (place D code dev (n + 1) = place D code dev n + 1 ∨ place D code dev (n + 1) < code.length) := by
  have hin := (running_iff.mp hrun).1
  obtain ⟨hplace, hwhere⟩ := next_of_ok (D := D) (actionOk_of_dataOk hok hin) rfl hin hsize
  have heq : place D code dev (n + 1)
      = next (actionAt code (place D code dev n)) (after D code dev n) (place D code dev n) := by
    rw [place, after_succ]
    exact hplace
  refine ⟨heq, ?_⟩
  rw [heq]
  exact hwhere

theorem place_le (hok : dataOk code = true) (hsize : code.length ≤ 2 ^ 62) (hrun : RunsFor D code dev n) :
    place D code dev n ≤ code.length := by
  cases n with
  | zero => exact Nat.zero_le _
  | succ n =>
      have hn := hrun n (Nat.lt_succ_self n)
      have hin : place D code dev n < code.length := (running_iff.mp hn).1
      obtain ⟨-, hwhere⟩ := place_succ hok hsize hn
      omega

/-- How long a run can go on. -/
theorem rounds_le (hok : dataOk code = true) (hsize : code.length ≤ 2 ^ 62) (hrun : RunsFor D code dev n) :
    n ≤ (Nat.count (JumpsBack D code dev) n + 1) * code.length := by
  have hin : ∀ j < n, place D code dev j < code.length := fun j hj => (running_iff.mp (hrun j hj)).1
  refine steps_le_laps hin ?_ (place_le hok hsize hrun)
  intro j hj hback
  rw [(place_succ hok hsize (hrun j hj)).1]
  exact lt_next hback _ _

/-- **A run ends**: a checked program that takes at most `k` jumps back on a device is over, on that
device, after `k + 1` laps of the program. -/
theorem checked_run_ends (hok : dataOk code = true) (hsize : code.length ≤ 2 ^ 62) {k : ℕ}
    (hback : ∀ n, RunsFor D code dev n → Nat.count (JumpsBack D code dev) n ≤ k) :
    ∃ m, writeFirmware D code ((k + 1) * code.length) dev = some m := by
  have hstop : ∃ j ≤ (k + 1) * code.length, running code (after D code dev j) = false := by
    by_contra hnone
    have hrun : RunsFor D code dev ((k + 1) * code.length + 1) := by
      intro j hj
      by_contra hj'
      exact hnone ⟨j, by omega, by simpa using hj'⟩
    have hrounds := rounds_le hok hsize hrun
    have hlaps : (Nat.count (JumpsBack D code dev) ((k + 1) * code.length + 1) + 1) * code.length
        ≤ (k + 1) * code.length := Nat.mul_le_mul_right _ (Nat.succ_le_succ (hback _ hrun))
    omega
  obtain ⟨j, hj, hend⟩ := hstop
  obtain ⟨i, hi, hat⟩ := exists_stopsAt (f := step D code) hend
  exact ⟨_, whileFuel_eq_some_iff.mpr ⟨i, hi.trans hj, hat, rfl⟩⟩

/-- A device whose registers read 0 at the first read and 1 from then on. -/
def readyAtSecondRead : Device ℕ where
  read _ _ reads := (if reads = 0 then 0 else 1, reads + 1)
  write _ _ _ reads := reads

/-- Read a register of the PHY again and again until it is 1, then write another. -/
def pollUntilReady : List (BitVec 32) := [0x01230000, 0xa0010001, 0x30020000, 0x81240001]

/-- One jump back: the second lap finds the register ready. -/
theorem checked_run_ends_poll :
    JumpsBack readyAtSecondRead pollUntilReady 0 2 ∧
      ∃ m, writeFirmware readyAtSecondRead pollUntilReady ((1 + 1) * pollUntilReady.length) 0 = some m := by
  have hover : running pollUntilReady (after readyAtSecondRead pollUntilReady 0 6) = false := by
    decide +kernel
  refine ⟨by decide +kernel, checked_run_ends (by decide +kernel) (by decide +kernel) fun n hrun => ?_⟩
  have hn : n ≤ 6 := by
    by_contra hlt
    have hrunning := hrun 6 (by omega)
    rw [hover] at hrunning
    cases hrunning
  calc Nat.count (JumpsBack readyAtSecondRead pollUntilReady 0) n
      ≤ Nat.count (JumpsBack readyAtSecondRead pollUntilReady 0) 6 := Nat.count_monotone _ hn
    _ ≤ 1 := by decide +kernel

/-- **A jump back to itself** passes the check, and a run that gets to it never ends. -/
theorem self_jump_hangs {m : Machine σ} (hjump : opcodeOf (actionAt code m.index.toNat) = some .bjmpn)
    (hself : regnoOf (actionAt code m.index.toNat) = 0) (hin : m.index.toNat < code.length) (fuel : ℕ) :
    actionOk code.length m.index.toNat (actionAt code m.index.toNat) = true ∧
      whileFuel (running code) (step D code) fuel m = none := by
  have hok : actionOk code.length m.index.toNat (actionAt code m.index.toNat) = true := by
    rw [actionOk, hjump, hself]
    simp
  have hrunning : running code m = true := by
    refine running_iff.mpr ⟨hin, fun hzero => ?_⟩
    rw [hzero] at hjump
    exact absurd hjump (by decide)
  have hfixed : step D code m = m := by
    rw [step, act, hjump, hself]
    obtain ⟨index, predata, count, mac, dev⟩ := m
    simp
  exact ⟨hok, whileFuel_of_fixed hrunning hfixed fuel⟩

end Run

/-! ### Images -/

/-- The actions of an image, where the check has found them. -/
def actions (fw : List Byte) (found : Found) : List (BitVec 32) :=
  (List.range found.size).map fun i => wordAt fw (found.start + opcodeSize * i)

section Image

variable {σ : Type} {D : Device σ} {dev : σ} {fw : List Byte} {fwName version : Buffer} {found : Found} {n : ℕ}

theorem length_actions : (actions fw found).length = found.size := by
  rw [actions, List.length_map, List.length_range]

theorem actionAt_actions {i : ℕ} (hi : i < found.size) :
    actionAt (actions fw found) i = wordAt fw (found.start + opcodeSize * i) := by
  simp [actionAt, actions, List.getD_eq_getElem?_getD, hi]

/-- **Every run of an accepted image stays in the image.**  If an image passes both checks, then on any
device and whatever its actions read, each round of the interpreter takes its action from inside the
image; and each place follows from the one before it as the action there says, without wrapping, and is
the next place or another action of the program. -/
theorem accepted_image_run_stays (hformat : formatOk fw fwName version = some found)
    (hdata : dataOk (actions fw found) = true) (hsize : fw.length < 2 ^ 64)
    (hrun : RunsFor D (actions fw found) dev n) :
    let pc := place D (actions fw found) dev
    pc n ≤ found.size ∧ ∀ j < n,
      found.start + opcodeSize * pc j + opcodeSize ≤ fw.length ∧
      pc (j + 1) = next (wordAt fw (found.start + opcodeSize * pc j)) (after D (actions fw found) dev j) (pc j) ∧
      (pc (j + 1) = pc j + 1 ∨ pc (j + 1) < found.size) := by
  intro pc
  have himage : found.start + 4 * found.size ≤ fw.length := (formatOk_sound hformat).inImage
  have hlength : (actions fw found).length = found.size := length_actions
  have hbound : (actions fw found).length ≤ 2 ^ 62 := by omega
  refine ⟨hlength ▸ place_le hdata hbound hrun, fun j hj => ?_⟩
  have hin : pc j < found.size := hlength ▸ (running_iff.mp (hrun j hj)).1
  obtain ⟨hnext, hwhere⟩ := place_succ hdata hbound (hrun j hj)
  rw [actionAt_actions hin] at hnext
  rw [hlength] at hwhere
  refine ⟨?_, hnext, hwhere⟩
  show found.start + 4 * pc j + 4 ≤ fw.length
  omega

/-- The image of `pollUntilReady`, without a header. -/
def pollImage : List Byte :=
  [0x00, 0x00, 0x23, 0x01, 0x01, 0x00, 0x01, 0xa0, 0x00, 0x00, 0x02, 0x30, 0x01, 0x00, 0x24, 0x81]

/-- Six rounds, the third of which jumps back to the read. -/
theorem accepted_image_run_stays_poll :
    let found : Found := ⟨strscpy (fun _ => 0) (fun _ => 0) verSize, 0, pollImage.length / opcodeSize⟩
    let pc := place readyAtSecondRead (actions pollImage found) 0
    pc 6 ≤ found.size ∧ (∀ j < 6, found.start + opcodeSize * pc j + opcodeSize ≤ pollImage.length) ∧
      (List.range 7).map pc = [0, 1, 2, 0, 1, 3, 4] := by
  intro found pc
  have hformat : formatOk pollImage (fun _ => 0) (fun _ => 0) = some found := by
    rw [formatOk, if_neg (by decide), if_neg (by decide), if_neg (by decide)]
  have hrun : RunsFor readyAtSecondRead (actions pollImage found) 0 6 := by
    show ∀ j < 6, running (actions pollImage found) _ = true
    decide +kernel
  obtain ⟨hend, hrounds⟩ :=
    accepted_image_run_stays hformat (by decide +kernel) (by decide +kernel) hrun
  exact ⟨hend, fun j hj => (hrounds j hj).1, by decide +kernel⟩

end Image

end Rtl812x.Firmware
