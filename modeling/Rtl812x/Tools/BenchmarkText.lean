import Rtl812x.Tools.Benchmark

/-!
# What the benchmark script can write

A text with a surrogate in it can neither be printed nor written to the CSV file.  Such texts reach the script
through the arguments of a command, the text of an `OSError`, and strings of a document; all other texts it
makes itself.

* `writable_reprValue` — what `repr` gives can be written, whatever strings are in the value;
* `writable_shellJoin` — a command can be printed if its words can;
* `writable_csvText` — the CSV file can be written if the cells of its rows can, which are
  the errors of the rows (`Row.writable_cells`).
-/

namespace Rtl812x.Tools

open Text Json

/-! ### Values -/

theorem hexChar_lt {d : ℕ} (hd : d < 16) : hexChar d < 0xD800 := by
  rw [hexChar]
  split <;> omega

theorem writable_hexDigits (width n : ℕ) : Writable (hexDigits width n) := by
  refine writable_of_lt fun c hc => ?_
  obtain ⟨i, -, rfl⟩ := List.mem_map.mp hc
  exact hexChar_lt (Nat.mod_lt _ (by decide))

theorem writable_reprChar (py : Interpreter) {quote : ℕ} (hquote : ¬ Surrogate quote) (c : ℕ) :
    Writable (reprChar py quote c) := by
  rw [reprChar]
  split
  · rename_i h
    rcases h with rfl | rfl
    · exact writable_cons.mpr ⟨by decide, writable_cons.mpr ⟨hquote, writable_nil⟩⟩
    · decide
  · split
    · exact writable_lit _
    split
    · exact writable_lit _
    split
    · exact writable_lit _
    split
    · rename_i hprint
      -- the table of the characters that can be shown has no surrogates
      refine List.forall_mem_singleton.mpr fun hc => ?_
      rw [py.not_isPrintable c hc] at hprint
      cases hprint
    split
    · exact (writable_lit _).append (writable_hexDigits _ _)
    split
    · exact (writable_lit _).append (writable_hexDigits _ _)
    · exact (writable_lit _).append (writable_hexDigits _ _)

theorem writable_reprStr (py : Interpreter) (s : Str) : Writable (reprStr py s) := by
  have hquoted : ∀ quote, ¬ Surrogate quote →
      Writable ([quote] ++ s.flatMap (reprChar py quote) ++ [quote]) := by
    intro quote hquote
    have hone : Writable [quote] := writable_cons.mpr ⟨hquote, writable_nil⟩
    refine (hone.append fun c hc => ?_).append hone
    obtain ⟨d, -, hd⟩ := List.mem_flatMap.mp hc
    exact writable_reprChar py hquote d c hd
  rw [reprStr]
  split
  · exact hquoted _ (by decide)
  · exact hquoted _ (by decide)

mutual

theorem writable_reprValue (py : Interpreter) : ∀ v, Writable (reprValue py v)
  | .null => writable_lit _
  | .bool true => writable_lit _
  | .bool false => writable_lit _
  | .int n => writable_decimalInt n
  | .float x => x.writable_repr
  | .str s => writable_reprStr py s
  | .list items =>
      ((writable_lit "[").append ((writable_join (writable_lit _)).mpr (writable_reprItems py items))).append
        (writable_lit "]")
  | .dict entries =>
      ((show Writable [0x7B] by decide).append
        ((writable_join (writable_lit _)).mpr (writable_reprEntries py entries))).append
        (show Writable [0x7D] by decide)

theorem writable_reprItems (py : Interpreter) : ∀ l, ∀ s ∈ reprItems py l, Writable s
  | [] => nofun
  | v :: l => List.forall_mem_cons.mpr ⟨writable_reprValue py v, writable_reprItems py l⟩

theorem writable_reprEntries (py : Interpreter) : ∀ l, ∀ s ∈ reprEntries py l, Writable s
  | [] => nofun
  | (key, v) :: l => List.forall_mem_cons.mpr
      ⟨((writable_reprStr py key).append (writable_lit _)).append (writable_reprValue py v),
        writable_reprEntries py l⟩

end

theorem Number.writable_shown (v : Number) : Writable v.shown := by
  cases v with
  | int n => exact writable_decimalInt n
  | float x => exact x.writable_repr

/-- The errors of the hooks. -/
theorem hooks_sound (py : Interpreter) : (hooks py).Sound where
  parseInt token text _ h := by
    simp only [hooks, parseInt] at h
    split at h
    · cases h
      simp only [writable_append, writable_lit, writable_decimal, and_self]
    · cases h
  parseFloat token text htoken h := by
    simp only [hooks, finiteFloat] at h
    split at h
    · cases h
    · cases h
      exact (writable_lit _).append htoken
  parseConstant token text htoken h := by
    cases h
    exact (writable_lit _).append htoken

/-! ### Commands -/

theorem writable_shellQuote (word : Str) : Writable (shellQuote word) ↔ Writable word := by
  rw [shellQuote]
  split
  · rename_i h
    rw [h]
    exact iff_of_true (writable_lit _) writable_nil
  split
  · rfl
  · have hquote : ∀ c, Writable (if c = 0x27 then lit "'\"'\"'" else [c]) ↔ ¬ Surrogate c := by
      intro c
      split
      · rename_i h
        rw [h]
        exact iff_of_true (writable_lit _) (by decide)
      · exact List.forall_mem_singleton
    simp only [writable_append, writable_lit, true_and, and_true, writable_flatMap hquote]

theorem writable_shellJoin (command : List Str) :
    Writable (shellJoin command) ↔ ∀ word ∈ command, Writable word := by
  simp only [shellJoin, writable_join (writable_lit " "), List.forall_mem_map, writable_shellQuote]

/-! ### Rows -/

theorem writable_csvCell (cell : Str) : Writable (csvCell cell) ↔ Writable cell := by
  rw [csvCell]
  split
  · have hquote : ∀ c, Writable (if c = 0x22 then [c, c] else [c]) ↔ ¬ Surrogate c := by
      intro c
      split
      · simp [Writable]
      · exact List.forall_mem_singleton
    simp only [writable_append, writable_lit, true_and, and_true, writable_flatMap hquote]
  · rfl

theorem writable_csvLine (cells : List Str) : Writable (csvLine cells) ↔ ∀ cell ∈ cells, Writable cell := by
  simp only [csvLine, writable_append, writable_join (writable_lit ","), List.forall_mem_map, writable_csvCell,
    writable_lit, and_true]

theorem writable_csvText (rows : List Row) :
    Writable (csvText rows) ↔ ∀ row ∈ rows, ∀ cell ∈ row.cells, Writable cell := by
  have hheader : Writable (csvLine (fields.map lit)) :=
    (writable_csvLine _).mpr (List.forall_mem_map.mpr fun s _ => writable_lit s)
  simp only [csvText, writable_flatten, List.map_cons, List.forall_mem_cons, hheader, true_and, List.map_map,
    List.forall_mem_map, Function.comp_apply, writable_csvLine]

/-- The texts of the row that the script did not make can be written. -/
def Row.CanWrite (row : Row) : Prop := (∀ text ∈ row.error, Writable text) ∧ Writable row.snapshotErrors

theorem writable_artifactName (index : ℕ) (job : Job) : Writable (artifactName index job) := by
  simp only [artifactName, writable_append, writable_lit, writable_decimal, writable_decimal2, and_self]

theorem Row.writable_cells {row : Row} (h : Writable row.artifact) :
    (∀ cell ∈ row.cells, Writable cell) ↔ row.CanWrite := by
  have hnumbers : ∀ n : Option Number, Writable (n.elim [] Number.shown) := by
    intro n
    cases n with
    | none => exact writable_nil
    | some v => exact v.writable_shown
  have hrole : Writable (row.localRole.elim [] fun role => lit role.name) := by
    cases row.localRole with
    | none => exact writable_nil
    | some role => exact writable_lit _
  have herror : Writable (row.error.getD []) ↔ ∀ text ∈ row.error, Writable text := by
    cases row.error with
    | none => exact iff_of_true writable_nil nofun
    | some text => simp
  simp only [Row.cells, List.forall_mem_append, List.forall_mem_cons, List.forall_mem_map, writable_decimal,
    writable_lit, hrole, hnumbers, herror, h, Row.CanWrite]
  simp

end Rtl812x.Tools
