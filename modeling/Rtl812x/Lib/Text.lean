import Mathlib.Data.Nat.Digits.Lemmas
import Mathlib.Data.List.Basic

/-!
# Text as code points

A text of a Python program is a sequence of code points, and surrogates are among them: a text may hold
what no encoding can write.  `Str` is the list of the code points.

* `lit` — a literal; `Writable` — a text that UTF-8 can write, with its rules (`writable_lit`,
  `Writable.append`, `writable_join`);
* `units` — UTF-8 read octet by octet: a code point, or a piece that is not well formed, which is what a
  strict reader refuses (`decodeStrict`) and a lenient one replaces (`decodeReplace`);
* `decimal` — a number in decimal digits; `ofDecimal_decimal` — read back.
-/

namespace Text

/-- A text: its code points. -/
abbrev Str := List ℕ

/-- A literal. -/
def lit (s : String) : Str := s.toList.map Char.toNat

/-! ### What can be written -/

/-- A surrogate code point. -/
def Surrogate (c : ℕ) : Prop := 0xD800 ≤ c ∧ c ≤ 0xDFFF

instance (c : ℕ) : Decidable (Surrogate c) := inferInstanceAs (Decidable (_ ∧ _))

/-- UTF-8 can write the text: it holds no surrogates. -/
def Writable (s : Str) : Prop := ∀ c ∈ s, ¬ Surrogate c

instance (s : Str) : Decidable (Writable s) := inferInstanceAs (Decidable (∀ c ∈ s, ¬ Surrogate c))

theorem writable_lit (s : String) : Writable (lit s) := by
  intro c hc
  obtain ⟨ch, -, rfl⟩ := List.mem_map.mp hc
  rintro ⟨hlo, hhi⟩
  have hvalid : ch.toNat < 0xD800 ∨ 0xDFFF < ch.toNat ∧ ch.toNat < 0x110000 := ch.valid
  omega

theorem writable_nil : Writable [] := nofun

theorem writable_of_lt {s : Str} (h : ∀ c ∈ s, c < 0xD800) : Writable s := by
  intro c hc
  have := h c hc
  rw [Surrogate]
  omega

theorem writable_cons {c : ℕ} {s : Str} : Writable (c :: s) ↔ ¬ Surrogate c ∧ Writable s :=
  List.forall_mem_cons

theorem writable_append {s t : Str} : Writable (s ++ t) ↔ Writable s ∧ Writable t :=
  List.forall_mem_append

theorem Writable.append {s t : Str} (hs : Writable s) (ht : Writable t) : Writable (s ++ t) :=
  writable_append.mpr ⟨hs, ht⟩

/-- A text made of the code points of another. -/
theorem Writable.of_subset {s t : Str} (hs : Writable s) (h : t ⊆ s) : Writable t :=
  fun c hc => hs c (h hc)

/-- A text with each code point replaced by one that can be written exactly where the code point can. -/
theorem writable_flatMap {f : ℕ → Str} (hf : ∀ c, Writable (f c) ↔ ¬ Surrogate c) {s : Str} :
    Writable (s.flatMap f) ↔ Writable s := by
  induction s with
  | nil => rfl
  | cons c s ih =>
      rw [List.flatMap_cons, writable_append, ih, hf, writable_cons]

theorem writable_flatten {l : List Str} : Writable l.flatten ↔ ∀ s ∈ l, Writable s := by
  induction l with
  | nil => exact iff_of_true writable_nil nofun
  | cons s l ih =>
      rw [List.flatten_cons, writable_append, ih, List.forall_mem_cons]

/-- Texts one after the other, with a separator between. -/
def join (sep : Str) : List Str → Str
  | [] => []
  | [s] => s
  | s :: t :: l => s ++ sep ++ join sep (t :: l)

theorem writable_join {sep : Str} (hsep : Writable sep) {l : List Str} :
    Writable (join sep l) ↔ ∀ s ∈ l, Writable s := by
  induction l with
  | nil => exact iff_of_true writable_nil nofun
  | cons s l ih =>
      cases l with
      | nil => simp [join]
      | cons t l =>
          rw [join, writable_append, writable_append, ih]
          constructor
          · rintro ⟨⟨hs, -⟩, hl⟩
            exact List.forall_mem_cons.mpr ⟨hs, hl⟩
          · intro h
            obtain ⟨hs, hl⟩ := List.forall_mem_cons.mp h
            exact ⟨⟨hs, hsep⟩, hl⟩

/-! ### Reading octets -/

/-- The octet is in the range. -/
def octetIn (lo hi : ℕ) (b : UInt8) : Bool := decide (lo ≤ b.toNat) && decide (b.toNat ≤ hi)

/-- A continuation octet. -/
def continues (b : UInt8) : Bool := octetIn 0x80 0xBF b

/-- The second octet after a first one that starts three: no overlong forms and no surrogates. -/
def secondOfThree (b0 b1 : UInt8) : Bool :=
  octetIn (if b0 = 0xE0 then 0xA0 else 0x80) (if b0 = 0xED then 0x9F else 0xBF) b1

/-- The second octet after a first one that starts four: no overlong forms, nothing beyond the last
code point. -/
def secondOfFour (b0 b1 : UInt8) : Bool :=
  octetIn (if b0 = 0xF0 then 0x90 else 0x80) (if b0 = 0xF4 then 0x8F else 0xBF) b1

def low6 (b : UInt8) : ℕ := b.toNat % 0x40

/-- The octets read from the left: a code point, or `none` for a longest piece that begins a code point
and does not end it, or for an octet that begins none. -/
def units : List UInt8 → List (Option ℕ)
  | [] => []
  | b0 :: r0 =>
    if b0.toNat < 0x80 then some b0.toNat :: units r0
    else if octetIn 0xC2 0xDF b0 then
      match r0 with
      | b1 :: r1 =>
        if continues b1 then some (b0.toNat % 0x20 * 0x40 + low6 b1) :: units r1
        else none :: units (b1 :: r1)
      | [] => [none]
    else if octetIn 0xE0 0xEF b0 then
      match r0 with
      | b1 :: b2 :: r2 =>
        if secondOfThree b0 b1 then
          if continues b2 then
            some ((b0.toNat % 0x10 * 0x40 + low6 b1) * 0x40 + low6 b2) :: units r2
          else none :: units (b2 :: r2)
        else none :: units (b1 :: b2 :: r2)
      | [b1] => if secondOfThree b0 b1 then [none] else none :: units [b1]
      | [] => [none]
    else if octetIn 0xF0 0xF4 b0 then
      match r0 with
      | b1 :: b2 :: b3 :: r3 =>
        if secondOfFour b0 b1 then
          if continues b2 then
            if continues b3 then
              some (((b0.toNat % 8 * 0x40 + low6 b1) * 0x40 + low6 b2) * 0x40 + low6 b3) :: units r3
            else none :: units (b3 :: r3)
          else none :: units (b2 :: b3 :: r3)
        else none :: units (b1 :: b2 :: b3 :: r3)
      | [b1, b2] =>
        if secondOfFour b0 b1 then
          if continues b2 then [none] else none :: units [b2]
        else none :: units [b1, b2]
      | [b1] => if secondOfFour b0 b1 then [none] else none :: units [b1]
      | [] => [none]
    else none :: units r0

/-- `bytes.decode("utf-8")`: refused unless every piece is a code point. -/
def decodeStrict (bytes : List UInt8) : Option Str := (units bytes).mapM id

/-- `bytes.decode("utf-8", errors="replace")`. -/
def decodeReplace (bytes : List UInt8) : Str := (units bytes).map (Option.getD · 0xFFFD)

/-- Universal newlines: a carriage return, with or without a line feed, is read as a line feed. -/
def universalNewlines : Str → Str
  | [] => []
  | 0x0D :: 0x0A :: s => 0x0A :: universalNewlines s
  | 0x0D :: s => 0x0A :: universalNewlines s
  | c :: s => c :: universalNewlines s

/-! ### Numbers -/

/-- A number in decimal digits. -/
def decimal (n : ℕ) : Str :=
  if n = 0 then [0x30] else (Nat.digits 10 n).reverse.map (0x30 + ·)

/-- A number in decimal digits, at least two of them. -/
def decimal2 (n : ℕ) : Str := if n < 10 then 0x30 :: decimal n else decimal n

def decimalInt : ℤ → Str
  | .ofNat n => decimal n
  | .negSucc n => 0x2D :: decimal (n + 1)

/-- The number a run of decimal digits stands for. -/
def ofDecimal (s : Str) : ℕ := s.foldl (fun a c => 10 * a + (c - 0x30)) 0

def isDigit (c : ℕ) : Bool := decide (0x30 ≤ c) && decide (c ≤ 0x39)

theorem mem_decimal {n c : ℕ} (hc : c ∈ decimal n) : 0x30 ≤ c ∧ c ≤ 0x39 := by
  rw [decimal] at hc
  split at hc
  · rw [List.mem_singleton.mp hc]
    decide
  · obtain ⟨d, hd, rfl⟩ := List.mem_map.mp hc
    have := Nat.digits_lt_base (by decide : 1 < 10) (List.mem_reverse.mp hd)
    omega

theorem ofDecimal_decimal (n : ℕ) : ofDecimal (decimal n) = n := by
  rw [decimal]
  split
  case isTrue h => rw [h]; rfl
  case isFalse =>
    rw [ofDecimal, List.foldl_map, List.foldl_reverse]
    have hdigits : Nat.ofDigits 10 (Nat.digits 10 n) = n := Nat.ofDigits_digits 10 n
    rw [Nat.ofDigits_eq_foldr] at hdigits
    simpa [Nat.add_comm] using hdigits

theorem writable_decimal (n : ℕ) : Writable (decimal n) := by
  refine writable_of_lt fun c hc => ?_
  have := mem_decimal hc
  omega

theorem mem_decimal2 {n c : ℕ} (hc : c ∈ decimal2 n) : 0x30 ≤ c ∧ c ≤ 0x39 := by
  rw [decimal2] at hc
  split at hc
  · rcases List.mem_cons.mp hc with rfl | hc
    · decide
    · exact mem_decimal hc
  · exact mem_decimal hc

theorem ofDecimal_decimal2 (n : ℕ) : ofDecimal (decimal2 n) = n := by
  rw [decimal2]
  split
  · exact ofDecimal_decimal n
  · exact ofDecimal_decimal n

theorem writable_decimal2 (n : ℕ) : Writable (decimal2 n) := by
  refine writable_of_lt fun c hc => ?_
  have := mem_decimal2 hc
  omega

theorem writable_decimalInt (n : ℤ) : Writable (decimalInt n) := by
  cases n with
  | ofNat n => exact writable_decimal n
  | negSucc n => exact Writable.append (writable_lit "-") (writable_decimal (n + 1))

end Text
