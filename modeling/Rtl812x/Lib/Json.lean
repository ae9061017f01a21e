import Mathlib.Data.List.TakeWhile
import Rtl812x.Lib.Binary64

/-!
# JSON documents, as Python reads them

`json.loads` with hooks for the numbers and the constants: the scanner of the standard library, on the
part of the document that is still to be read.  A position is given by what is left from it on.

* `Value` — a document; `depth` — how many of its containers lie inside one another;
* `scanOnce` — one value, with at most so many containers open at once; `loads` — a whole document, with
  the texts of the errors;
* `Reads` — what every scanner keeps to: it leaves less than it was given, or fails with a text that can
  be written, and never because a loop was cut off;
* `loads_error` — **a document that is not read is nested too deeply, or the error has a text that can be
  written.**
-/

open Text

namespace Json

/-- A document.  The entries of an object have distinct keys, in the order in which they came. -/
inductive Value where
  | null
  | bool (b : Bool)
  | int (n : ℤ)
  | float (x : Binary64)
  | str (s : Str)
  | list (items : List Value)
  | dict (entries : List (Str × Value))

mutual

/-- How many containers lie inside one another. -/
def Value.depth : Value → ℕ
  | .list items => 1 + depthItems items
  | .dict entries => 1 + depthEntries entries
  | _ => 0

def depthItems : List Value → ℕ
  | [] => 0
  | v :: l => max v.depth (depthItems l)

def depthEntries : List (Str × Value) → ℕ
  | [] => 0
  | (_, v) :: l => max v.depth (depthEntries l)

end

theorem Value.depth_eq_zero {v : Value} (hlist : ∀ l, v ≠ .list l) (hdict : ∀ l, v ≠ .dict l) : v.depth = 0 := by
  cases v with
  | list l => exact absurd rfl (hlist l)
  | dict l => exact absurd rfl (hdict l)
  | _ => rfl

@[simp] theorem Value.depth_null : Value.null.depth = 0 := Value.depth_eq_zero (by simp) (by simp)

@[simp] theorem Value.depth_int (n : ℤ) : (Value.int n).depth = 0 :=
  Value.depth_eq_zero (by simp) (by simp)

@[simp] theorem Value.depth_float (x : Binary64) : (Value.float x).depth = 0 :=
  Value.depth_eq_zero (by simp) (by simp)

@[simp] theorem Value.depth_str (s : Str) : (Value.str s).depth = 0 :=
  Value.depth_eq_zero (by simp) (by simp)

theorem depthItems_le_iff {l : List Value} {n : ℕ} : depthItems l ≤ n ↔ ∀ v ∈ l, v.depth ≤ n := by
  induction l with
  | nil => exact iff_of_true (Nat.zero_le n) (List.forall_mem_nil _)
  | cons v l ih =>
      show max v.depth (depthItems l) ≤ n ↔ _
      rw [Nat.max_le, ih, List.forall_mem_cons]

theorem depthEntries_le_iff {l : List (Str × Value)} {n : ℕ} :
    depthEntries l ≤ n ↔ ∀ e ∈ l, e.2.depth ≤ n := by
  induction l with
  | nil => exact iff_of_true (Nat.zero_le n) (List.forall_mem_nil _)
  | cons e l ih =>
      show max e.2.depth (depthEntries l) ≤ n ↔ _
      rw [Nat.max_le, ih, List.forall_mem_cons]

theorem depth_list_le_iff {l : List Value} {n : ℕ} :
    (Value.list l).depth ≤ n + 1 ↔ ∀ v ∈ l, v.depth ≤ n := by
  show 1 + depthItems l ≤ n + 1 ↔ _
  rw [Nat.add_comm, Nat.add_le_add_iff_right, depthItems_le_iff]

theorem depth_dict_le_iff {l : List (Str × Value)} {n : ℕ} :
    (Value.dict l).depth ≤ n + 1 ↔ ∀ e ∈ l, e.2.depth ≤ n := by
  show 1 + depthEntries l ≤ n + 1 ↔ _
  rw [Nat.add_comm, Nat.add_le_add_iff_right, depthEntries_le_iff]

/-- `d.get(key, default)`. -/
def get (entries : List (Str × Value)) (key : String) (default : Value) : Value :=
  (entries.lookup (lit key)).getD default

/-- `d[key] = value`: an entry that is there keeps its place. -/
def set : List (Str × Value) → Str → Value → List (Str × Value)
  | [], key, value => [(key, value)]
  | e :: l, key, value => if e.1 = key then (key, value) :: l else e :: set l key value

/-! ### Scanners -/

/-- Why a scanner stops: a message at what is left of the document, an error of a hook, containers nested
too deeply, or a loop that was cut off. -/
inductive ScanError where
  | decode (msg : String) (rest : Str)
  | hook (text : Str)
  | tooDeep
  | outOfFuel

/-- What a scanner gives: a result and what is left, or an error. -/
abbrev Scan (α : Type) := Except ScanError (α × Str)

/-- One scanner after another, on what is left. -/
def Scan.andThen {α β : Type} (x : Scan α) (f : α → Str → Scan β) : Scan β :=
  match x with
  | .ok (a, r) => f a r
  | .error e => .error e

/-- The functions for the numbers and the constants; an error is the text of a `ValueError`. -/
structure Hooks where
  parseInt : Str → Except Str Value
  parseFloat : Str → Except Str Value
  parseConstant : Str → Except Str Value

def isSpace (c : ℕ) : Bool := c == 0x20 || c == 0x09 || c == 0x0A || c == 0x0D

/-- What is left after blanks. -/
def skip (s : Str) : Str := s.dropWhile isSpace

def hexDigit (c : ℕ) : Option ℕ :=
  if isDigit c then some (c - 0x30)
  else if 0x61 ≤ c ∧ c ≤ 0x66 then some (c - 0x61 + 10)
  else if 0x41 ≤ c ∧ c ≤ 0x46 then some (c - 0x41 + 10)
  else none

/-- Four hexadecimal digits. -/
def hex4 : Str → Option (ℕ × Str)
  | a :: b :: c :: d :: r => do
      let a ← hexDigit a
      let b ← hexDigit b
      let c ← hexDigit c
      let d ← hexDigit d
      some (((a * 16 + b) * 16 + c) * 16 + d, r)
  | _ => none

/-- A second escape after a high surrogate, if there is one and it is a low surrogate; otherwise the high
surrogate stands alone. -/
def scanLow (high : ℕ) (r : Str) : Scan (Option ℕ) :=
  match r with
  | 0x5C :: 0x75 :: r' =>
      if 6 < r.length then
        match hex4 r' with
        | none => .error (.decode "Invalid \\uXXXX escape" (0x75 :: r'))
        | some (low, r'') =>
            if 0xDC00 ≤ low ∧ low ≤ 0xDFFF then
              .ok (some (0x10000 + ((high - 0xD800) * 0x400 + (low - 0xDC00))), r'')
            else .ok (some high, r)
      else .ok (some high, r)
  | _ => .ok (some high, r)

/-- The letters that stand for another character after a backslash. -/
def escapeOf : ℕ → Option ℕ
  | 0x22 => some 0x22
  | 0x5C => some 0x5C
  | 0x2F => some 0x2F
  | 0x62 => some 0x08
  | 0x66 => some 0x0C
  | 0x6E => some 0x0A
  | 0x72 => some 0x0D
  | 0x74 => some 0x09
  | _ => none

/-- What follows a backslash.  An escape of four digits must not end the document. -/
def scanEscape (start : Str) : Str → Scan (Option ℕ)
  | [] => .error (.decode "Unterminated string starting at" start)
  | 0x75 :: r =>
      if r.length ≤ 4 then .error (.decode "Invalid \\uXXXX escape" (0x75 :: r))
      else
        match hex4 r with
        | none => .error (.decode "Invalid \\uXXXX escape" (0x75 :: r))
        | some (c, r') => if 0xD800 ≤ c ∧ c ≤ 0xDBFF then scanLow c r' else .ok (some c, r')
  | c :: r =>
      match escapeOf c with
      | none => .error (.decode "Invalid \\escape" (0x5C :: c :: r))
      | some e => .ok (some e, r)

/-- One character of a string, or its end. -/
def scanChar (start : Str) : Str → Scan (Option ℕ)
  | [] => .error (.decode "Unterminated string starting at" start)
  | 0x22 :: r => .ok (none, r)
  | 0x5C :: r => scanEscape start r
  | c :: r => if c ≤ 0x1F then .error (.decode "Invalid control character at" (c :: r)) else .ok (some c, r)

def scanChars (start : Str) : ℕ → Str → Scan Str
  | 0, _ => .error .outOfFuel
  | n + 1, s => (scanChar start s).andThen fun c r =>
      match c with
      | none => .ok ([], r)
      | some c => (scanChars start n r).andThen fun t r => .ok (c :: t, r)

/-- A string, after its first quotation mark. -/
def scanString (s : Str) : Scan Str := scanChars (0x22 :: s) (s.length + 1) s

/-- The digits before the point: a zero, or digits that do not start with one. -/
def scanInteger : Str → Str × Str
  | 0x30 :: r => ([0x30], r)
  | s => (s.takeWhile isDigit, s.dropWhile isDigit)

/-- A point and digits, or nothing. -/
def scanFraction (s : Str) : Str × Str :=
  match s with
  | 0x2E :: r =>
      if r.takeWhile isDigit = [] then ([], s)
      else (0x2E :: r.takeWhile isDigit, r.dropWhile isDigit)
  | _ => ([], s)

/-- A sign, one of the given ones, or nothing. -/
def scanSign (signs : Str) (s : Str) : Str × Str :=
  match s with
  | c :: r => if c ∈ signs then ([c], r) else ([], s)
  | [] => ([], [])

/-- An `e`, a sign and digits, or nothing. -/
def scanExponent (s : Str) : Str × Str :=
  let letter := scanSign (lit "eE") s
  let sign := scanSign (lit "+-") letter.2
  let digits := sign.2.takeWhile isDigit
  if letter.1 = [] ∨ digits = [] then ([], s)
  else (letter.1 ++ sign.1 ++ digits, sign.2.dropWhile isDigit)

/-- A number: its text, whether it is a float, and what is left. -/
def scanNumber (s : Str) : Option (Str × Bool × Str) :=
  let sign := scanSign (lit "-") s
  let integer := scanInteger sign.2
  let frac := scanFraction integer.2
  let expo := scanExponent frac.2
  if integer.1 = [] then none
  else some (sign.1 ++ integer.1 ++ frac.1 ++ expo.1, frac.1 != [] || expo.1 != [], expo.2)

/-- The words of the language, those that are no JSON with the hook for them. -/
def keywords (hooks : Hooks) : List (Str × Except Str Value) :=
  [(lit "null", .ok .null), (lit "true", .ok (.bool true)), (lit "false", .ok (.bool false)),
    (lit "NaN", hooks.parseConstant (lit "NaN")),
    (lit "Infinity", hooks.parseConstant (lit "Infinity")),
    (lit "-Infinity", hooks.parseConstant (lit "-Infinity"))]

/-- A word or a number. -/
def scanAtom (hooks : Hooks) (s : Str) : Option (Except Str Value × Str) :=
  match (keywords hooks).find? fun word => word.1.isPrefixOf s with
  | some word => some (word.2, s.drop word.1.length)
  | none => (scanNumber s).map fun (token, isFloat, r) =>
      (if isFloat then hooks.parseFloat token else hooks.parseInt token, r)

/-- The parts of a container up to the character that closes it, with commas between them. -/
def scanParts {α : Type} (close : ℕ) (scan : Str → Scan α) : ℕ → Str → Scan (List α)
  | 0, _ => .error .outOfFuel
  | n + 1, s => (scan s).andThen fun v r =>
      match skip r with
      | [] => .error (.decode "Expecting ',' delimiter" [])
      | c :: r =>
          if c = close then .ok ([v], r)
          else if c = 0x2C then (scanParts close scan n (skip r)).andThen fun l r => .ok (v :: l, r)
          else .error (.decode "Expecting ',' delimiter" (c :: r))

/-- A container, after the character that opens it. -/
def scanContainer {α : Type} (close : ℕ) (scan : Str → Scan α) (s : Str) : Scan (List α) :=
  if (skip s).head? = some close then .ok ([], (skip s).tail)
  else scanParts close scan ((skip s).length + 1) (skip s)

/-- One entry of an object: a key, a colon and a value. -/
def scanEntry (scan : Str → Scan Value) : Str → Scan (Str × Value)
  | 0x22 :: r => (scanString r).andThen fun key r =>
      match skip r with
      | 0x3A :: r => (scan (skip r)).andThen fun v r => .ok ((key, v), r)
      | r => .error (.decode "Expecting ':' delimiter" r)
  | s => .error (.decode "Expecting property name enclosed in double quotes" s)

/-- An array, after its bracket. -/
def scanArray (scan : Str → Scan Value) (s : Str) : Scan Value :=
  (scanContainer 0x5D scan s).andThen fun l r => .ok (.list l, r)

/-- An object, after its brace.  Of several entries with one key the last one counts. -/
def scanObject (scan : Str → Scan Value) (s : Str) : Scan Value :=
  (scanContainer 0x7D (scanEntry scan) s).andThen fun l r =>
    .ok (.dict (l.foldl (fun d e => set d e.1 e.2) []), r)

/-- One value; `inner` reads what is in a container, if one more may be opened. -/
def scanValue (hooks : Hooks) (inner : Option (Str → Scan Value)) (s : Str) : Scan Value :=
  match s with
  | 0x22 :: r => (scanString r).andThen fun t r => .ok (.str t, r)
  | 0x7B :: r => inner.elim (.error .tooDeep) (scanObject · r)
  | 0x5B :: r => inner.elim (.error .tooDeep) (scanArray · r)
  | s =>
      match scanAtom hooks s with
      | some (.ok v, r) => .ok (v, r)
      | some (.error text, _) => .error (.hook text)
      | none => .error (.decode "Expecting value" s)

/-- One value, with at most so many containers open at once. -/
def scanOnce (hooks : Hooks) : ℕ → Str → Scan Value
  | 0 => scanValue hooks none
  | n + 1 => scanValue hooks (some (scanOnce hooks n))

/-! ### Whole documents -/

/-- The text of an error, with the line and the column. -/
def message (doc : Str) (msg : String) (rest : Str) : Str :=
  let done := doc.take (doc.length - rest.length)
  let column := (done.reverse.takeWhile (· != 0x0A)).length + 1
  lit msg ++ lit ": line " ++ decimal (done.count 0x0A + 1) ++ lit " column " ++ decimal column ++
    lit " (char " ++ decimal done.length ++ lit ")"

/-- What `json.loads` raises. -/
inductive LoadError where
  | valueError (text : Str)
  | recursionError
  | outOfFuel
deriving DecidableEq

def ScanError.raised (doc : Str) : ScanError → LoadError
  | .decode msg rest => .valueError (message doc msg rest)
  | .hook text => .valueError text
  | .tooDeep => .recursionError
  | .outOfFuel => .outOfFuel

def scanDocument (hooks : Hooks) (depth : ℕ) (doc : Str) : Except ScanError Value :=
  if doc.head? = some 0xFEFF then
    .error (.decode "Unexpected UTF-8 BOM (decode using utf-8-sig)" doc)
  else
    match scanOnce hooks depth (skip doc) with
    | .error e => .error e
    | .ok (v, r) => if skip r = [] then .ok v else .error (.decode "Extra data" (skip r))

/-- `json.loads(doc, …)`, with at most so many containers open at once. -/
def loads (hooks : Hooks) (depth : ℕ) (doc : Str) : Except LoadError Value :=
  (scanDocument hooks depth doc).mapError (ScanError.raised doc)

/-! ### What every scanner keeps to -/

/-- The scanner leaves fewer than `n` characters, or fails: not because a loop was cut off, and if a hook
failed, with a text that can be written. -/
def Reads {α : Type} (n : ℕ) : Scan α → Prop
  | .ok (_, r) => r.length < n
  | .error e => e ≠ .outOfFuel ∧ ∀ text, e = .hook text → Writable text

theorem reads_decode {α : Type} {n : ℕ} (msg : String) (rest : Str) :
    Reads n (.error (.decode msg rest) : Scan α) :=
  ⟨nofun, nofun⟩

theorem reads_tooDeep {α : Type} {n : ℕ} : Reads n (.error .tooDeep : Scan α) :=
  ⟨nofun, nofun⟩

/-- One scanner after another: the second one is given less than `n` characters. -/
theorem Reads.andThen {α β : Type} {n m : ℕ} {x : Scan α} {f : α → Str → Scan β} (hx : Reads n x)
    (hf : ∀ a r, r.length < n → Reads m (f a r)) : Reads m (x.andThen f) := by
  cases x with
  | error e => exact hx
  | ok p => exact hf p.1 p.2 hx

theorem Reads.mono {α : Type} {n m : ℕ} {x : Scan α} (hx : Reads n x) (h : n ≤ m) : Reads m x := by
  cases x with
  | error e => exact hx
  | ok p => exact Nat.lt_of_lt_of_le hx h

theorem length_skip (s : Str) : (skip s).length ≤ s.length := List.length_dropWhile_le isSpace s

theorem length_hex4 {s r : Str} {c : ℕ} (h : hex4 s = some (c, r)) : r.length < s.length := by
  rw [hex4.eq_def] at h
  split at h
  · simp only [Option.bind_eq_bind, Option.bind_eq_some_iff, Option.some.injEq, Prod.mk.injEq] at h
    obtain ⟨-, -, -, -, -, -, -, -, -, rfl⟩ := h
    simp only [List.length_cons]
    omega
  · cases h

theorem reads_scanLow (high : ℕ) (r : Str) : Reads (r.length + 1) (scanLow high r) := by
  rw [scanLow.eq_def]
  split
  · split
    · split
      · exact reads_decode _ _
      · rename_i h
        have := length_hex4 h
        split
        · rw [Reads, List.length_cons, List.length_cons]
          omega
        · exact Nat.lt_succ_self _
    · exact Nat.lt_succ_self _
  · exact Nat.lt_succ_self _

theorem reads_scanEscape (start s : Str) : Reads s.length (scanEscape start s) := by
  rw [scanEscape.eq_def]
  split
  · exact reads_decode _ _
  · split
    · exact reads_decode _ _
    · split
      · exact reads_decode _ _
      · rename_i h
        have hlen := length_hex4 h
        split
        · exact (reads_scanLow _ _).mono (by rw [List.length_cons]; omega)
        · rw [Reads, List.length_cons]
          omega
  · split
    · exact reads_decode _ _
    · exact Nat.lt_succ_self _

theorem reads_scanChar (start s : Str) : Reads s.length (scanChar start s) := by
  rw [scanChar.eq_def]
  split
  · exact reads_decode _ _
  · exact Nat.lt_succ_self _
  · exact (reads_scanEscape _ _).mono (Nat.le_succ _)
  · split
    · exact reads_decode _ _
    · exact Nat.lt_succ_self _

theorem reads_scanChars (start : Str) {n : ℕ} {s : Str} (hs : s.length < n) :
    Reads s.length (scanChars start n s) := by
  induction n generalizing s with
  | zero => omega
  | succ n ih =>
      rw [scanChars]
      refine (reads_scanChar start s).andThen fun c r hr => ?_
      cases c with
      | none => exact hr
      | some c => exact (ih (by omega)).andThen fun t r' hr' => Nat.lt_trans hr' hr

theorem reads_scanString (s : Str) : Reads s.length (scanString s) :=
  reads_scanChars _ (Nat.lt_succ_self _)

/-! ### Numbers -/

/-- The text is taken from the front, and holds ASCII characters only. -/
structure Takes (s : Str) (p : Str × Str) : Prop where
  append : p.1 ++ p.2 = s
  ascii : ∀ c ∈ p.1, c < 0x80

theorem takes_nil (s : Str) : Takes s ([], s) := ⟨rfl, nofun⟩

theorem takes_digits (s : Str) : Takes s (s.takeWhile isDigit, s.dropWhile isDigit) where
  append := List.takeWhile_append_dropWhile
  ascii c hc := by
    have hdigit := List.mem_takeWhile_imp hc
    simp only [isDigit, Bool.and_eq_true, decide_eq_true_eq] at hdigit
    omega

theorem Takes.andThen {s r : Str} {t : Str} {p : Str × Str} (h : Takes s (t, r)) (hp : Takes r p) :
    Takes s (t ++ p.1, p.2) where
  append := by rw [List.append_assoc, hp.append, h.append]
  ascii := List.forall_mem_append.mpr ⟨h.ascii, hp.ascii⟩

theorem takes_cons {c : ℕ} {r : Str} (hc : c < 0x80) : Takes (c :: r) ([c], r) where
  append := rfl
  ascii := by simpa using hc

theorem takes_scanInteger (s : Str) : Takes s (scanInteger s) := by
  rw [scanInteger.eq_def]
  split
  · exact takes_cons (by decide)
  · exact takes_digits _

theorem takes_scanFraction (s : Str) : Takes s (scanFraction s) := by
  rw [scanFraction.eq_def]
  split
  · split
    · exact takes_nil _
    · exact (takes_cons (by decide)).andThen (takes_digits _)
  · exact takes_nil _

theorem takes_scanSign (signs : Str) (hsigns : ∀ c ∈ signs, c < 0x80) (s : Str) :
    Takes s (scanSign signs s) := by
  rw [scanSign.eq_def]
  split
  · split
    · rename_i hc
      exact takes_cons (hsigns _ hc)
    · exact takes_nil _
  · exact takes_nil _

theorem takes_scanExponent (s : Str) : Takes s (scanExponent s) := by
  have hletter := takes_scanSign (lit "eE") (by decide) s
  have hsign := takes_scanSign (lit "+-") (by decide) (scanSign (lit "eE") s).2
  rw [scanExponent]
  split
  · exact takes_nil _
  · exact (hletter.andThen hsign).andThen (takes_digits _)

/-- The text of a number can be written, and is not empty. -/
theorem scanNumber_eq_some {s token r : Str} {isFloat : Bool}
    (h : scanNumber s = some (token, isFloat, r)) : Writable token ∧ r.length < s.length := by
  have hsign := takes_scanSign (lit "-") (by decide) s
  rw [scanNumber] at h
  generalize scanSign (lit "-") s = sign at *
  have hinteger := takes_scanInteger sign.2
  generalize scanInteger sign.2 = integer at *
  have hfrac := takes_scanFraction integer.2
  generalize scanFraction integer.2 = frac at *
  have hexpo := takes_scanExponent frac.2
  generalize scanExponent frac.2 = expo at *
  have hall := ((hsign.andThen hinteger).andThen hfrac).andThen hexpo
  split at h
  · cases h
  · rename_i hne
    simp only [Option.some.injEq, Prod.mk.injEq] at h
    obtain ⟨rfl, -, rfl⟩ := h
    refine ⟨writable_of_lt fun c hc => ?_, ?_⟩
    · have := hall.ascii c hc
      omega
    · have hlen := congrArg List.length hall.append
      have hpos := List.length_pos_iff.mpr hne
      simp only [List.length_append] at hlen
      omega

/-! ### Values -/

/-- What a hook raises on a text that can be written can be written. -/
structure Hooks.Sound (hooks : Hooks) : Prop where
  parseInt : ∀ token text, Writable token → hooks.parseInt token = .error text → Writable text
  parseFloat : ∀ token text, Writable token → hooks.parseFloat token = .error text → Writable text
  parseConstant : ∀ token text, Writable token → hooks.parseConstant token = .error text → Writable text

section Values

variable {hooks : Hooks}

theorem keywords_nonempty {word : Str × Except Str Value} (h : word ∈ keywords hooks) :
    0 < word.1.length := by
  have hlen : ∀ t ∈ (keywords hooks).map Prod.fst, 0 < t.length := by
    simp only [keywords, List.map_cons, List.map_nil]
    decide
  exact hlen _ (List.mem_map_of_mem h)

theorem Hooks.Sound.keyword (hw : hooks.Sound) {word : Str × Except Str Value} {text : Str}
    (h : word ∈ keywords hooks) (he : word.2 = .error text) : Writable text := by
  have hconst := fun s => hw.parseConstant (lit s) text (writable_lit s)
  simp only [keywords, List.mem_cons, List.not_mem_nil, or_false] at h
  rcases h with rfl | rfl | rfl | rfl | rfl | rfl
  · cases he
  · cases he
  · cases he
  · exact hconst _ he
  · exact hconst _ he
  · exact hconst _ he

theorem scanAtom_eq_some (hw : hooks.Sound) {s r : Str} {result : Except Str Value}
    (h : scanAtom hooks s = some (result, r)) :
    r.length < s.length ∧ ∀ text, result = .error text → Writable text := by
  rw [scanAtom] at h
  split at h
  case h_1 word hfind =>
    obtain ⟨rfl, rfl⟩ : word.2 = result ∧ s.drop word.1.length = r := by simpa using h
    have hmem := List.mem_of_find?_eq_some hfind
    have hpos := keywords_nonempty hmem
    have hpre : word.1.length ≤ s.length := by
      have hfound := List.find?_some hfind
      exact (List.isPrefixOf_iff_prefix.mp hfound).length_le
    refine ⟨?_, fun text he => hw.keyword hmem he⟩
    rw [List.length_drop]
    omega
  case h_2 =>
    obtain ⟨⟨token, isFloat, r'⟩, hnum, heq⟩ := Option.map_eq_some_iff.mp h
    obtain ⟨henc, hlen⟩ := scanNumber_eq_some hnum
    obtain ⟨rfl, rfl⟩ := Prod.mk.inj heq
    refine ⟨hlen, fun text he => ?_⟩
    cases isFloat with
    | true => exact hw.parseFloat _ _ henc he
    | false => exact hw.parseInt _ _ henc he

variable {α : Type} {scan : Str → Scan α}

theorem reads_scanParts (close : ℕ) (hscan : ∀ s, Reads s.length (scan s)) {n : ℕ} {s : Str}
    (hs : s.length < n) : Reads s.length (scanParts close scan n s) := by
  induction n generalizing s with
  | zero => omega
  | succ n ih =>
      rw [scanParts]
      refine (hscan s).andThen fun v r hr => ?_
      have hskip := length_skip r
      cases hr' : skip r with
      | nil => exact reads_decode _ _
      | cons c r' =>
          rw [hr', List.length_cons] at hskip
          have hskip' := length_skip r'
          dsimp only
          split
          · rw [Reads]
            omega
          · split
            · refine (ih (by omega)).andThen fun l r'' hr'' => ?_
              rw [Reads]
              omega
            · exact reads_decode _ _

theorem reads_scanContainer (close : ℕ) (hscan : ∀ s, Reads s.length (scan s)) (s : Str) :
    Reads (s.length + 1) (scanContainer close scan s) := by
  have hskip := length_skip s
  rw [scanContainer]
  split
  · rw [Reads, List.length_tail]
    omega
  · exact (reads_scanParts close hscan (Nat.lt_succ_self _)).mono (by omega)

theorem reads_scanEntry {scan : Str → Scan Value} (hscan : ∀ s, Reads s.length (scan s)) (s : Str) :
    Reads s.length (scanEntry scan s) := by
  rw [scanEntry.eq_def]
  split
  · refine (reads_scanString _).andThen fun key r hr => ?_
    have hskip := length_skip r
    split
    · rename_i r' hr'
      rw [hr', List.length_cons] at hskip
      have hskip' := length_skip r'
      refine (hscan _).andThen fun v r'' hr'' => ?_
      rw [Reads, List.length_cons]
      omega
    · exact reads_decode _ _
  · exact reads_decode _ _

theorem reads_scanValue (hw : hooks.Sound) {inner : Option (Str → Scan Value)}
    (hinner : ∀ scan ∈ inner, ∀ s, Reads s.length (scan s)) (s : Str) :
    Reads s.length (scanValue hooks inner s) := by
  have hcontainer : ∀ (r : Str) (f : (Str → Scan Value) → Str → Scan Value),
      (∀ scan ∈ inner, Reads (r.length + 1) (f scan r)) →
      Reads (r.length + 1) (inner.elim (.error .tooDeep) (f · r)) := by
    intro r f hf
    cases inner with
    | none => exact reads_tooDeep
    | some scan => exact hf scan rfl
  rw [scanValue.eq_def]
  split
  · exact (reads_scanString _).andThen fun t r' hr' => Nat.lt_succ_of_lt hr'
  · refine hcontainer _ scanObject fun scan hscan => ?_
    exact (reads_scanContainer _ (reads_scanEntry (hinner scan hscan)) _).andThen fun l r hr => hr
  · refine hcontainer _ scanArray fun scan hscan => ?_
    exact (reads_scanContainer _ (hinner scan hscan) _).andThen fun l r hr => hr
  · split
    · rename_i h
      exact (scanAtom_eq_some hw h).1
    · rename_i h
      refine ⟨nofun, fun t ht => ?_⟩
      cases ht
      exact (scanAtom_eq_some hw h).2 _ rfl
    · exact reads_decode _ _

theorem reads_scanOnce (hw : hooks.Sound) (depth : ℕ) (s : Str) :
    Reads s.length (scanOnce hooks depth s) := by
  induction depth generalizing s with
  | zero => exact reads_scanValue hw (fun scan h => by cases h) s
  | succ n ih =>
      refine reads_scanValue hw (fun scan hscan => ?_) s
      rw [← Option.some.inj hscan]
      exact ih

end Values

theorem writable_message (doc : Str) (msg : String) (rest : Str) : Writable (message doc msg rest) := by
  rw [message]
  simp only [writable_append, writable_lit, writable_decimal, and_self]

/-- **What `json.loads` raises**: the document is nested too deeply, or the text of the error can be
written. -/
theorem loads_error {hooks : Hooks} (hw : hooks.Sound) {depth : ℕ} {doc : Str} {e : LoadError}
    (h : loads hooks depth doc = .error e) :
    e = .recursionError ∨ ∃ text, e = .valueError text ∧ Writable text := by
  have hdecode : ∀ msg rest, (ScanError.decode msg rest).raised doc = .recursionError ∨
      ∃ text, (ScanError.decode msg rest).raised doc = .valueError text ∧ Writable text :=
    fun msg rest => .inr ⟨_, rfl, writable_message doc msg rest⟩
  have hreads := reads_scanOnce hw depth (skip doc)
  rw [loads, scanDocument] at h
  split at h
  · cases h
    exact hdecode _ _
  · split at h
    · rename_i e' hscan
      rw [hscan] at hreads
      cases h
      cases e' with
      | decode msg rest => exact hdecode msg rest
      | hook text => exact .inr ⟨text, rfl, hreads.2 text rfl⟩
      | tooDeep => exact .inl rfl
      | outOfFuel => exact absurd rfl hreads.1
    · split at h
      · cases h
      · cases h
        exact hdecode _ _

end Json
