import Rtl812x.Tools.BenchmarkText

/-!
# The row of a benchmark job

When a job of the benchmark script gets as far as its row, and what the row then says.

* `number_cases` — a value is accepted, refused with a `ValueError`, or an integer too large for a float,
  which raises an `OverflowError`;
* `survives_metrics` — the metrics raise nothing that is not caught: `PayloadFine`, a condition on the
  document;
* `run_eq_ok`, `run_spec` — what the script records of a process;
* `settle_eq_ok` — the `try` of the loop; `jobRow_eq_ok` — **a job gets as far as its row, and the row and
  the record can be written, exactly where `Handled` says so**;
* `RowOf`, `rowOf_of_jobRow` — what the row says: it is marked ok only if the process succeeded and its
  numbers are usable.
-/

namespace Rtl812x.Tools

open Text Json

theorem bind_eq_ok {α β : Type} {x : Except Exc α} {f : α → Except Exc β} {b : β} :
    x >>= f = .ok b ↔ ∃ a, x = .ok a ∧ f a = .ok b := by
  cases x with
  | error e => exact iff_of_false nofun nofun
  | ok a => exact ⟨fun h => ⟨a, rfl, h⟩, fun ⟨_, ha, h⟩ => by cases ha; exact h⟩

/-- Nothing is raised but what the loop catches and can write. -/
def Survives {α : Type} (r : Except Exc α) : Prop :=
  ∀ e, r = .error e → ∃ text, e.caught = some text ∧ Writable text

theorem survives_ok {α : Type} (a : α) : Survives (.ok a : Except Exc α) := nofun

theorem survives_error {α : Type} {e : Exc} :
    Survives (.error e : Except Exc α) ↔ ∃ text, e.caught = some text ∧ Writable text :=
  ⟨fun h => h e rfl, fun h e' he => by cases he; exact h⟩

theorem survives_valueError {α : Type} {text : Str} :
    Survives (.error (.valueError text) : Except Exc α) ↔ Writable text := by
  simp [survives_error, Exc.caught]

theorem survives_bind {α β : Type} {x : Except Exc α} {f : α → Except Exc β} :
    Survives (x >>= f) ↔ Survives x ∧ ∀ a, x = .ok a → Survives (f a) := by
  cases x with
  | error e =>
      have hraise : (.error e >>= f : Except Exc β) = .error e := rfl
      rw [hraise, survives_error, survives_error]
      exact ⟨fun h => ⟨h, nofun⟩, fun h => h.1⟩
  | ok a => exact ⟨fun h => ⟨survives_ok a, fun a' ha => by cases ha; exact h⟩, fun h => h.2 a rfl⟩

theorem not_survives_overflow {α : Type} : ¬ Survives (.error .overflowError : Except Exc α) := by
  simp [survives_error, Exc.caught]

theorem not_survives_recursion {α : Type} : ¬ Survives (.error .recursionError : Except Exc α) := by
  simp [survives_error, Exc.caught]

/-! ### Numbers -/

/-- The number is finite as a float and not negative. -/
def Number.Usable (v : Number) : Prop := v.toFloat ≠ none ∧ v.isNegative = false

/-- An integer too large for a float. -/
def TooLarge (value : Value) : Prop := ∃ n, value = .int n ∧ 2 ^ 1024 - 2 ^ 970 ≤ n.natAbs

/-- A value that is taken: absent where it may be, or a number that is usable. -/
def Accepted (value : Value) (required : Bool) : Prop :=
  value = .null ∧ required = false ∨ ∃ v, asNumber value = some v ∧ v.Usable

theorem tooLarge_iff {value : Value} {v : Number} (h : asNumber value = some v) :
    TooLarge value ↔ v.toFloat = none := by
  cases value with
  | int n =>
      obtain rfl : Number.int n = v := Option.some.inj h
      rw [Number.toFloat, Binary64.ofInt_eq_none_iff]
      exact ⟨fun ⟨m, hm, hlarge⟩ => by cases hm; exact hlarge, fun hlarge => ⟨n, rfl, hlarge⟩⟩
  | float x =>
      obtain rfl : Number.float x = v := Option.some.inj h
      exact iff_of_false nofun nofun
  | _ => cases h

/-- **A value is accepted, refused, or too large.** -/
theorem number_cases (value : Value) (name : String) (required : Bool) :
    (¬ TooLarge value ∧ Accepted value required ∧ ∃ r, number value name required = .ok r ∧
      (∀ v ∈ r, v.Usable) ∧ (required = true → r.isSome)) ∨
    (TooLarge value ∧ number value name required = .error .overflowError) ∨
    (¬ TooLarge value ∧ ¬ Accepted value required ∧
      ∃ text, number value name required = .error (.valueError text) ∧ Writable text) := by
  rw [number.eq_def]
  split
  · exact .inl ⟨nofun, .inl ⟨rfl, rfl⟩, none, rfl, nofun, nofun⟩
  · rename_i habsent
    have hnull : ¬ (value = .null ∧ required = false) := fun h => habsent h.1 h.2
    split
    · rename_i hnum
      refine .inr (.inr ⟨?_, ?_, _, rfl, (writable_lit _).append (writable_lit _)⟩)
      · rintro ⟨n, rfl, -⟩
        cases hnum
      · rintro (h | ⟨v, hv, -⟩)
        · exact hnull h
        · rw [hnum] at hv
          cases hv
    · rename_i v hnum
      split
      · rename_i hfloat
        exact .inr (.inl ⟨(tooLarge_iff hnum).mpr hfloat, rfl⟩)
      · rename_i hfloat
        have hsmall : ¬ TooLarge value := fun h => hfloat ((tooLarge_iff hnum).mp h)
        split
        · rename_i hneg
          refine .inr (.inr ⟨hsmall, ?_, _, rfl, ?_⟩)
          · rintro (h | ⟨w, hw, husable⟩)
            · exact hnull h
            · obtain rfl : v = w := Option.some.inj (hnum.symm.trans hw)
              exact absurd husable.2 (by rw [hneg]; decide)
          · exact (((writable_lit _).append (writable_lit _)).append (writable_lit _)).append v.writable_shown
        · rename_i hneg
          have husable : v.Usable := ⟨hfloat, by simpa using hneg⟩
          exact .inl ⟨hsmall, .inr ⟨v, hnum, husable⟩, some v, rfl, by simpa using husable, fun _ => rfl⟩

theorem number_eq_ok {value : Value} {name : String} {required : Bool} {r : Option Number}
    (h : number value name required = .ok r) : (∀ v ∈ r, v.Usable) ∧ (required = true → r.isSome) := by
  rcases number_cases value name required with ⟨-, -, r', hr', hspec⟩ | ⟨-, he⟩ | ⟨-, -, text, he, -⟩
  · rw [h] at hr'
    cases hr'
    exact hspec
  · rw [h] at he
    cases he
  · rw [h] at he
    cases he

/-- Of values that are taken one after the other, one that is too large comes before any that is
refused. -/
def FirstTooLarge : List (Value × Bool) → Prop
  | [] => False
  | (value, required) :: l => TooLarge value ∨ Accepted value required ∧ FirstTooLarge l

theorem survives_number_bind {α : Type} {value : Value} {name : String} {required : Bool}
    {f : Option Number → Except Exc α} {l : List (Value × Bool)}
    (hf : ∀ r, number value name required = .ok r → (Survives (f r) ↔ ¬ FirstTooLarge l)) :
    Survives (number value name required >>= f) ↔ ¬ FirstTooLarge ((value, required) :: l) := by
  rw [FirstTooLarge]
  rcases number_cases value name required with
    ⟨hsmall, hacc, r, hr, -⟩ | ⟨hlarge, he⟩ | ⟨hsmall, hacc, text, he, htext⟩
  · have hstep : (number value name required >>= f) = f r := by rw [hr]; rfl
    simp only [hstep, hsmall, hacc, false_or, true_and, hf r hr]
  · rw [he]
    exact iff_of_false not_survives_overflow (fun h => h (.inl hlarge))
  · rw [he]
    exact iff_of_true (survives_valueError.mpr htext) (by simp only [hsmall, hacc, false_and, or_self,
      not_false_eq_true])

/-! ### Metrics -/

/-- The values of the metrics in the order in which they are checked, each with whether it is required. -/
def measured (tx : Bool) (sent received cpu : Dict) : List (Value × Bool) :=
  [(get (if tx then sent else received) "bits_per_second" .null, true),
    (get sent "bits_per_second" .null, false), (get received "bits_per_second" .null, false),
    (get sent "retransmits" .null, false), (get cpu "host_total" .null, false),
    (get cpu "remote_total" .null, false)]

theorem survives_measure (tx : Bool) (sent received cpu : Dict) :
    Survives (measure tx sent received cpu) ↔ ¬ FirstTooLarge (measured tx sent received cpu) := by
  rw [measure, measured]
  iterate 6 refine survives_number_bind fun _ _ => ?_
  exact iff_of_true (survives_ok _) not_false

/-- The numbers of the metrics. -/
def Metrics.numbers (m : Metrics) : List (Option Number) :=
  [m.localBps, m.senderBps, m.receiverBps, m.retransmits, m.hostCpuPercent, m.remoteCpuPercent]

/-- The metrics are usable, and the throughput is there. -/
def Metrics.Usable (m : Metrics) : Prop := (∀ n ∈ m.numbers, ∀ v ∈ n, v.Usable) ∧ m.localBps.isSome

theorem usable_of_measure {tx : Bool} {sent received cpu : Dict} {m : Metrics}
    (h : measure tx sent received cpu = .ok m) : m.Usable := by
  rw [measure] at h
  obtain ⟨a, ha, h⟩ := bind_eq_ok.mp h
  obtain ⟨b, hb, h⟩ := bind_eq_ok.mp h
  obtain ⟨c, hc, h⟩ := bind_eq_ok.mp h
  obtain ⟨d, hd, h⟩ := bind_eq_ok.mp h
  obtain ⟨e, he, h⟩ := bind_eq_ok.mp h
  obtain ⟨f, hf, h⟩ := bind_eq_ok.mp h
  cases h
  refine ⟨?_, (number_eq_ok ha).2 rfl⟩
  simp only [Metrics.numbers, List.forall_mem_cons]
  exact ⟨(number_eq_ok ha).1, (number_eq_ok hb).1, (number_eq_ok hc).1, (number_eq_ok hd).1,
    (number_eq_ok he).1, (number_eq_ok hf).1, nofun⟩

/-- The document has no error, and these are its summary objects. -/
def Summaries (payload : Value) (sent received cpu : Dict) : Prop :=
  ∃ entries results, payload = .dict entries ∧ truthy (get entries "error" .null) = false ∧
    get entries "end" .null = .dict results ∧ get results "sum_sent" (.dict []) = .dict sent ∧
    get results "sum_received" (.dict []) = .dict received ∧
    get results "cpu_utilization_percent" (.dict []) = .dict cpu

/-- The error a document reports can be shown and written: a string without surrogates, or a value that is
not nested too deeply. -/
def Shown (py : Interpreter) : Value → Prop
  | .str s => Writable s
  | value => value.depth ≤ py.reprDepth

theorem survives_str {α : Type} (py : Interpreter) (value : Value) :
    Survives (str py value >>= fun text => (.error (.valueError text) : Except Exc α)) ↔ Shown py value := by
  have hother : ∀ v : Value, Survives ((if v.depth ≤ py.reprDepth then .ok (reprValue py v)
      else .error .recursionError) >>= fun text => (.error (.valueError text) : Except Exc α)) ↔
      v.depth ≤ py.reprDepth := by
    intro v
    split
    · rename_i h
      exact iff_of_true (survives_valueError.mpr (writable_reprValue py v)) h
    · rename_i h
      exact iff_of_false not_survives_recursion h
  cases value with
  | str s => exact survives_valueError
  | null => exact hother .null
  | bool b => exact hother (.bool b)
  | int n => exact hother (.int n)
  | float x => exact hother (.float x)
  | list items => exact hother (.list items)
  | dict entries => exact hother (.dict entries)

/-- The summary objects are found exactly where they are. -/
theorem summaries_eq_ok (py : Interpreter) (payload : Value) (objects : Dict × Dict × Dict) :
    summaries py payload = .ok objects ↔ Summaries payload objects.1 objects.2.1 objects.2.2 := by
  rw [summaries.eq_def]
  constructor
  · intro h
    split at h
    · rename_i entries
      split at h
      · obtain ⟨text, -, h⟩ := bind_eq_ok.mp h
        cases h
      · rename_i herror
        split at h
        · rename_i results hresults
          split at h
          · rename_i sent received cpu hsent hreceived hcpu
            cases h
            exact ⟨entries, results, rfl, by simpa using herror, hresults, hsent, hreceived, hcpu⟩
          · cases h
        · cases h
    · cases h
  · rintro ⟨entries, results, rfl, herror, hresults, hsent, hreceived, hcpu⟩
    simp only [herror, Bool.false_eq_true, if_false, hresults, hsent, hreceived, hcpu]

/-- Where they are not found, what is raised can be written unless it is an error that cannot be shown. -/
theorem survives_summaries (py : Interpreter) (payload : Value) :
    Survives (summaries py payload) ↔ ∀ entries, payload = .dict entries →
      truthy (get entries "error" .null) = true → Shown py (get entries "error" .null) := by
  have hlit : ∀ s, Survives (.error (.valueError (lit s)) : Except Exc (Dict × Dict × Dict)) :=
    fun s => survives_valueError.mpr (writable_lit s)
  rw [summaries.eq_def]
  split
  · rename_i entries
    have hentries : (∀ entries', Value.dict entries = .dict entries' →
        truthy (get entries' "error" .null) = true → Shown py (get entries' "error" .null)) ↔
        (truthy (get entries "error" .null) = true → Shown py (get entries "error" .null)) :=
      ⟨fun h => h entries rfl, fun h entries' he => by cases he; exact h⟩
    rw [hentries]
    split
    · rename_i htrue
      rw [survives_str]
      exact ⟨fun h _ => h, fun h => h htrue⟩
    · rename_i hfalse
      refine iff_of_true ?_ fun htrue => absurd htrue hfalse
      split
      · split
        · exact survives_ok _
        · exact hlit _
      · exact hlit _
  · rename_i hnot
    exact iff_of_true (hlit _) fun entries he => absurd he (hnot entries)

/-- What the metrics need of a document: an error it reports can be shown, and no integer too large for a
float comes before the first value that is refused. -/
structure PayloadFine (py : Interpreter) (direction : Direction) (payload : Value) : Prop where
  shown : ∀ entries, payload = .dict entries → truthy (get entries "error" .null) = true →
    Shown py (get entries "error" .null)
  small : ∀ sent received cpu, Summaries payload sent received cpu →
    ¬ FirstTooLarge (measured (direction = .tx) sent received cpu)

theorem metrics_eq (py : Interpreter) (payload : Value) (direction : Direction) :
    metrics py payload (lit direction.name) =
      summaries py payload >>= fun (sent, received, cpu) => measure (direction = .tx) sent received cpu := by
  cases direction with
  | tx => rfl
  | rx => rfl

/-- **The metrics raise nothing but what is caught and can be written exactly if the document is fine.** -/
theorem survives_metrics (py : Interpreter) (payload : Value) (direction : Direction) :
    Survives (metrics py payload (lit direction.name)) ↔ PayloadFine py direction payload := by
  rw [metrics_eq, survives_bind, survives_summaries]
  simp only [summaries_eq_ok, survives_measure, Prod.forall]
  exact ⟨fun h => ⟨h.1, h.2⟩, fun h => ⟨h.1, h.2⟩⟩

theorem usable_of_metrics {py : Interpreter} {payload : Value} {direction : Direction} {m : Metrics}
    (h : metrics py payload (lit direction.name) = .ok m) : m.Usable := by
  rw [metrics_eq] at h
  obtain ⟨objects, -, h⟩ := bind_eq_ok.mp h
  exact usable_of_measure h

/-! ### Processes -/

/-- What the process wrote can be decoded where it has to be. -/
def Outcome.Decodes : Outcome → Prop
  | .completed _ out err => decodeStrict out ≠ none ∧ decodeStrict err ≠ none
  | _ => True

/-- The text of an `OSError` can be written. -/
def Outcome.ReasonWritable : Outcome → Prop
  | .osError text => Writable text
  | _ => True

/-- The process ended with status 0. -/
def Outcome.Succeeded (o : Outcome) : Prop := ∃ out err, o = .completed 0 out err

/-- What the script takes as the output of the process. -/
def Outcome.text : Outcome → Str
  | .completed _ out _ => (textOf out).getD []
  | .timeout out _ => decodeReplace (out.getD [])
  | .osError _ => []

/-- What it takes as its error. -/
def Outcome.error (timeout : ℕ) : Outcome → Option Str
  | .completed code _ _ => if code = 0 then none else some (lit "exit status " ++ decimalInt code)
  | .timeout _ _ => some (lit "timeout after " ++ decimal timeout ++ lit "s")
  | .osError text => some text

section Processes

variable {command : List Str} {timeout : ℕ} {o : Outcome} {p : Process}

theorem textOf_eq_none {bytes : List UInt8} : textOf bytes = none ↔ decodeStrict bytes = none :=
  Option.map_eq_none_iff

theorem run_eq_ok (command : List Str) (timeout : ℕ) :
    (∃ p, run command timeout o = .ok p) ↔ o.Decodes := by
  cases o with
  | completed code out err =>
      rw [run, Outcome.Decodes, Ne, Ne, ← textOf_eq_none, ← textOf_eq_none]
      cases textOf out with
      | none => exact iff_of_false nofun nofun
      | some stdout =>
          cases textOf err with
          | none => exact iff_of_false nofun nofun
          | some stderr => exact iff_of_true ⟨_, rfl⟩ ⟨nofun, nofun⟩
  | timeout out err => exact iff_of_true ⟨_, rfl⟩ trivial
  | osError text => exact iff_of_true ⟨_, rfl⟩ trivial

/-- The record of a process: its output, and its error. -/
theorem run_spec (h : run command timeout o = .ok p) :
    p.stdout = o.text ∧ p.error = o.error timeout := by
  cases o with
  | completed code out err =>
      rw [run] at h
      split at h
      · rename_i stdout stderr hout herr
        cases h
        exact ⟨by rw [Outcome.text, hout, Option.getD_some], rfl⟩
      · cases h
  | timeout out err =>
      cases h
      exact ⟨rfl, rfl⟩
  | osError text =>
      cases h
      exact ⟨rfl, rfl⟩

theorem mem_failure {t : Str} : t ∈ p.failure ↔ p.error = some t ∧ t ≠ [] := by
  rw [Process.failure, Option.mem_def, Option.filter_eq_some_iff, decide_eq_true_eq]

/-- The error of a process can be written unless it is the text of an `OSError` that cannot. -/
theorem writable_failure (h : run command timeout o = .ok p) :
    (∀ t ∈ p.failure, Writable t) ↔ o.ReasonWritable := by
  have herror := (run_spec h).2
  simp only [mem_failure, herror]
  cases o with
  | completed code out err =>
      refine iff_of_true ?_ trivial
      rintro t ⟨ht, -⟩
      rw [Outcome.error] at ht
      split at ht
      · cases ht
      · cases ht
        exact (writable_lit _).append (writable_decimalInt code)
  | timeout out err =>
      refine iff_of_true ?_ trivial
      rintro t ⟨ht, -⟩
      cases ht
      exact ((writable_lit _).append (writable_decimal _)).append (writable_lit _)
  | osError text =>
      constructor
      · intro hall
        by_cases hempty : text = []
        · rw [hempty]
          exact writable_nil
        · exact hall text ⟨rfl, hempty⟩
      · rintro htext t ⟨ht, -⟩
        cases ht
        exact htext

/-- A process without an error: it succeeded, or it could not be run and the reason is an empty text. -/
theorem failure_eq_none (h : run command timeout o = .ok p) :
    p.failure = none ↔ o.Succeeded ∨ o = .osError [] := by
  have herror := (run_spec h).2
  rw [Option.eq_none_iff_forall_not_mem]
  simp only [mem_failure, herror]
  cases o with
  | completed code out err =>
      by_cases hcode : code = 0
      · subst hcode
        exact iff_of_true (fun t ht => nomatch ht.1) (.inl ⟨out, err, rfl⟩)
      · refine iff_of_false (fun hno => hno _ ⟨if_neg hcode, ?_⟩) ?_
        · exact List.append_ne_nil_of_left_ne_nil (by decide) _
        · rintro (⟨out', err', he⟩ | he)
          · cases he
            exact hcode rfl
          · cases he
  | timeout out err =>
      refine iff_of_false (fun hno => hno _ ⟨rfl, ?_⟩) ?_
      · exact List.append_ne_nil_of_left_ne_nil (List.append_ne_nil_of_left_ne_nil (by decide) _) _
      · rintro (⟨out', err', he⟩ | he) <;> cases he
  | osError text =>
      constructor
      · intro hno
        by_cases hempty : text = []
        · exact .inr (by rw [hempty])
        · exact absurd ⟨rfl, hempty⟩ (hno text)
      · rintro (⟨out', err', he⟩ | he)
        · cases he
        · cases he
          rintro t ⟨ht, hne⟩
          cases ht
          exact hne rfl

/-- The snapshots: each of them is recorded, and their errors can be written. -/
theorem runs_eq_ok {cmds : List (List Str)} {f : List Str → Outcome} :
    (∃ l, cmds.mapM (fun cmd => run cmd 5 (f cmd)) = .ok l) ↔ ∀ cmd ∈ cmds, (f cmd).Decodes := by
  induction cmds with
  | nil => exact iff_of_true ⟨[], rfl⟩ nofun
  | cons cmd cmds ih =>
      rw [List.forall_mem_cons, ← ih, ← run_eq_ok cmd 5]
      simp only [List.mapM_cons]
      constructor
      · rintro ⟨l, hl⟩
        obtain ⟨p, hp, hl⟩ := bind_eq_ok.mp hl
        obtain ⟨l', hl', -⟩ := bind_eq_ok.mp hl
        exact ⟨⟨p, hp⟩, l', hl'⟩
      · rintro ⟨⟨p, hp⟩, l, hl⟩
        exact ⟨p :: l, bind_eq_ok.mpr ⟨p, hp, bind_eq_ok.mpr ⟨l, hl, rfl⟩⟩⟩

theorem writable_failures {cmds : List (List Str)} {f : List Str → Outcome} {l : List Process}
    (h : cmds.mapM (fun cmd => run cmd 5 (f cmd)) = .ok l) :
    (∀ t ∈ l.filterMap Process.failure, Writable t) ↔ ∀ cmd ∈ cmds, (f cmd).ReasonWritable := by
  induction cmds generalizing l with
  | nil =>
      cases h
      exact iff_of_true nofun nofun
  | cons cmd cmds ih =>
      rw [List.mapM_cons] at h
      obtain ⟨p, hp, h⟩ := bind_eq_ok.mp h
      obtain ⟨l', hl', h⟩ := bind_eq_ok.mp h
      cases h
      rw [List.forall_mem_cons, ← ih hl', ← writable_failure hp]
      cases hfail : p.failure with
      | none => simp [List.filterMap_cons_none hfail]
      | some t => simp [List.filterMap_cons_some hfail]

end Processes

/-! ### The `try` -/

theorem loadsText_nil (py : Interpreter) (payload : Value) : loadsText py [] ≠ .ok payload := by
  rw [loadsText]
  cases py.scanDepth with
  | zero => exact nofun
  | succ n => exact nofun

section Try

variable {py : Interpreter} {direction : Direction} {p : Process} {start row : Row}

/-- The row after the `try`: the metrics are in it, or an error is. -/
theorem settle_spec {r : Except Exc Metrics} (h : settle start p r = .ok row) :
    (∃ m, r = .ok m ∧ row = start.update m) ∨ ∃ text, row = { start with error := some text } := by
  cases r with
  | ok m =>
      cases h
      exact .inl ⟨m, rfl, rfl⟩
  | error e =>
      rw [settle] at h
      split at h
      · cases h
        exact .inr ⟨_, rfl⟩
      · cases h

/-- Without an error of the process, the row can be written if nothing but that is raised. -/
theorem settle_survives (hstart : start.error = none) (hfail : p.failure = none) (r : Except Exc Metrics) :
    (∃ row, settle start p r = .ok row ∧ ∀ t ∈ row.error, Writable t) ↔ Survives r := by
  cases r with
  | ok m => exact iff_of_true ⟨_, rfl, by simp [Row.update, hstart]⟩ (survives_ok m)
  | error e =>
      rw [survives_error, settle]
      cases e.caught with
      | none =>
          refine iff_of_false ?_ nofun
          rintro ⟨row, h, -⟩
          cases h
      | some text =>
          rw [hfail]
          constructor
          · rintro ⟨row, h, hwrite⟩
            cases h
            exact ⟨text, rfl, hwrite text rfl⟩
          · rintro ⟨text', ht, hwrite⟩
            cases ht
            exact ⟨_, rfl, fun t ht => by cases ht; exact hwrite⟩

/-- With one, the row has that error, whatever is caught. -/
theorem settle_failure {t text : Str} (hfail : p.failure = some t) {e : Exc} (he : e.caught = some text) :
    (∃ row, settle start p (.error e) = .ok row ∧ ∀ t ∈ row.error, Writable t) ↔
      ∀ t' ∈ some t, Writable t' := by
  rw [settle, he, hfail]
  constructor
  · rintro ⟨row, h, hwrite⟩
    cases h
    exact hwrite
  · exact fun hwrite => ⟨_, rfl, hwrite⟩

/-- **The `try` gets to a row whose error can be written** exactly if the document is not nested too deeply
for reading it, the error of the process can be written, and if there is none, the document is fine. -/
theorem settle_eq_ok (start : Row) (hstart : start.error = none) :
    (∃ row, settle start p (examine py direction p).2 = .ok row ∧ ∀ t ∈ row.error, Writable t) ↔
      loadsText py p.stdout ≠ .error .recursionError ∧ (∀ t ∈ p.failure, Writable t) ∧
      (p.failure = none → ∀ payload, loadsText py p.stdout = .ok payload →
        PayloadFine py direction payload) := by
  rw [examine]
  cases hload : loadsText py p.stdout with
  | error e =>
      rcases loads_error (hooks_sound py) hload with rfl | ⟨text, rfl, htext⟩
      · refine iff_of_false ?_ (fun h => h.1 rfl)
        rintro ⟨row, h, -⟩
        cases h
      · cases hfail : p.failure with
        | none =>
            rw [settle_survives hstart hfail]
            exact iff_of_true (survives_valueError.mpr htext) ⟨nofun, nofun, nofun⟩
        | some t =>
            rw [settle_failure hfail rfl]
            exact ⟨fun h => ⟨nofun, h, nofun⟩, fun h => h.2.1⟩
  | ok payload =>
      cases hfail : p.failure with
      | none =>
          rw [settle_survives hstart hfail, survives_metrics]
          exact ⟨fun h => ⟨nofun, nofun, fun _ _ he => by cases he; exact h⟩, fun h => h.2.2 rfl payload rfl⟩
      | some t =>
          rw [settle_failure hfail rfl]
          exact ⟨fun h => ⟨nofun, h, nofun⟩, fun h => h.2.1⟩

end Try

/-! ### Records -/

@[simp] theorem depth_elim {α : Type} {f : α → Value} (hf : ∀ a, (f a).depth = 0) (o : Option α) :
    (o.elim .null f).depth = 0 := by
  cases o with
  | none => exact Value.depth_null
  | some a => exact hf a

@[simp] theorem Number.depth_toValue (v : Number) : v.toValue.depth = 0 := by
  cases v with
  | int n => exact Value.depth_int n
  | float x => exact Value.depth_float x

theorem Process.depth_toValue (p : Process) : p.toValue.depth ≤ 2 := by
  have hcommand : (Value.list (p.command.map .str)).depth ≤ 1 :=
    depth_list_le_iff.mpr (List.forall_mem_map.mpr fun s _ => by simp)
  refine depth_dict_le_iff.mpr ?_
  simpa using hcommand

theorem depth_processes (l : List Process) : (Value.list (l.map Process.toValue)).depth ≤ 3 :=
  depth_list_le_iff.mpr (List.forall_mem_map.mpr fun p _ => p.depth_toValue)

theorem Row.depth_toValue (row : Row) : row.toValue.depth ≤ 1 := by
  refine depth_dict_le_iff.mpr fun e he => ?_
  have hmem := (List.of_mem_zip he).2
  generalize e.2 = v at hmem
  revert v
  simp [Row.numbers]

/-- The record can be written if the document in it can. -/
theorem depth_recordOf {n : ℕ} (hn : 4 ≤ n) (started : Str) (before after : List Process) (process : Process)
    (iperf : Option Value) (row : Row) :
    (recordOf started before after process iperf row).depth ≤ n ↔
      ∀ payload ∈ iperf, payload.depth + 1 ≤ n := by
  obtain ⟨n, rfl⟩ : ∃ k, n = k + 1 := ⟨n - 1, by omega⟩
  have hbefore := depth_processes before
  have hafter := depth_processes after
  have hprocess := process.depth_toValue
  have hrow := row.depth_toValue
  rw [recordOf, depth_dict_le_iff]
  simp only [List.forall_mem_append, List.forall_mem_cons, Nat.add_le_add_iff_right]
  constructor
  · rintro ⟨⟨-, hiperf⟩, -⟩ payload hpayload
    exact hiperf (lit "iperf", payload) (by rw [Option.mem_def.mp hpayload]; exact List.mem_singleton_self _)
  · intro h
    refine ⟨⟨⟨by simp, by omega, by omega, by omega, nofun⟩, ?_⟩, by omega, nofun⟩
    cases iperf with
    | none => exact nofun
    | some payload => exact List.forall_mem_singleton.mpr (h payload rfl)

/-- The row is in the record. -/
theorem get_recordOf (started : Str) (before after : List Process) (process : Process) (iperf : Option Value)
    (row : Row) : ∃ entries, recordOf started before after process iperf row = .dict entries ∧
      get entries "summary" .null = row.toValue := by
  refine ⟨_, rfl, ?_⟩
  cases iperf with
  | none => rfl
  | some payload => rfl

/-! ### Jobs -/

/-- A condition on every process of a job. -/
def Results.All (args : Args) (P : Outcome → Prop) (res : Results) : Prop :=
  P res.process ∧ ∀ cmd ∈ args.snapshots, P (res.before cmd) ∧ P (res.after cmd)

/-- **What a job needs to be recorded.**  The words of the command and the texts of the `OSError`s can be
written; what the processes that ended wrote is UTF-8; the document of the output is not nested too deeply for
reading and for writing it; and if the process succeeded, the document is fine. -/
structure Handled (py : Interpreter) (args : Args) (job : Job) (res : Results) : Prop where
  command : ∀ word ∈ job.command, Writable word
  decodes : res.All args Outcome.Decodes
  reasons : res.All args Outcome.ReasonWritable
  read : loadsText py res.process.text ≠ .error .recursionError
  written : ∀ payload, loadsText py res.process.text = .ok payload → payload.depth + 1 ≤ py.encodeDepth
  fine : res.process.Succeeded → ∀ payload, loadsText py res.process.text = .ok payload →
    PayloadFine py job.direction payload

section Jobs

variable {py : Interpreter} {args : Args} {index : ℕ} {job : Job} {res : Results} {row : Row} {record : Value}

/-- The parts of a job that gets to its row. -/
theorem jobRow_iff : jobRow py args index job res = .ok (row, record) ↔
    ∃ before process after, args.snapshots.mapM (fun cmd => run cmd 5 (res.before cmd)) = .ok before ∧
      run job.command args.timeout res.process = .ok process ∧
      args.snapshots.mapM (fun cmd => run cmd 5 (res.after cmd)) = .ok after ∧
      settle (Row.start index job (snapshotErrors before after)) process
        (examine py job.direction process).2 = .ok row ∧
      record = recordOf res.started before after process (examine py job.direction process).1 row := by
  rw [jobRow]
  constructor
  · intro h
    obtain ⟨before, hbefore, h⟩ := bind_eq_ok.mp h
    obtain ⟨process, hprocess, h⟩ := bind_eq_ok.mp h
    obtain ⟨after, hafter, h⟩ := bind_eq_ok.mp h
    obtain ⟨row', hrow, h⟩ := bind_eq_ok.mp h
    cases h
    exact ⟨before, process, after, hbefore, hprocess, hafter, hrow, rfl⟩
  · rintro ⟨before, process, after, hbefore, hprocess, hafter, hrow, rfl⟩
    exact bind_eq_ok.mpr ⟨_, hbefore, bind_eq_ok.mpr ⟨_, hprocess, bind_eq_ok.mpr ⟨_, hafter,
      bind_eq_ok.mpr ⟨_, hrow, rfl⟩⟩⟩⟩

theorem examine_fst (p : Process) (payload : Value) :
    payload ∈ (examine py job.direction p).1 ↔ loadsText py p.stdout = .ok payload := by
  rw [examine]
  cases loadsText py p.stdout with
  | error e => exact iff_of_false nofun nofun
  | ok payload' => simp

theorem snapshotErrors_of_settle {before after : List Process} {process : Process}
    (h : settle (Row.start index job (snapshotErrors before after)) process
      (examine py job.direction process).2 = .ok row) : row.snapshotErrors = snapshotErrors before after := by
  rcases settle_spec h with ⟨m, -, rfl⟩ | ⟨text, rfl⟩
  · rfl
  · rfl

theorem writable_snapshotErrors {before after : List Process}
    (hbefore : args.snapshots.mapM (fun cmd => run cmd 5 (res.before cmd)) = .ok before)
    (hafter : args.snapshots.mapM (fun cmd => run cmd 5 (res.after cmd)) = .ok after) :
    Writable (snapshotErrors before after) ↔
      ∀ cmd ∈ args.snapshots, (res.before cmd).ReasonWritable ∧ (res.after cmd).ReasonWritable := by
  rw [snapshotErrors, writable_join (writable_lit _), List.filterMap_append, List.forall_mem_append,
    writable_failures hbefore, writable_failures hafter]
  exact ⟨fun h cmd hcmd => ⟨h.1 cmd hcmd, h.2 cmd hcmd⟩,
    fun h => ⟨fun cmd hcmd => (h cmd hcmd).1, fun cmd hcmd => (h cmd hcmd).2⟩⟩

/-- The document matters where the process has no error, which is where it succeeded: without any output
there is no document. -/
theorem fine_iff {process : Process} (hrun : run job.command args.timeout res.process = .ok process)
    (P : Value → Prop) :
    (process.failure = none → ∀ payload, loadsText py process.stdout = .ok payload → P payload) ↔
      (res.process.Succeeded → ∀ payload, loadsText py res.process.text = .ok payload → P payload) := by
  rw [failure_eq_none hrun, (run_spec hrun).1]
  constructor
  · exact fun h hsucc => h (.inl hsucc)
  · rintro h (hsucc | hempty) payload hload
    · exact h hsucc payload hload
    · rw [hempty] at hload
      exact absurd hload (loadsText_nil py payload)

/-- **A job gets to a row and a record that can be written exactly where it is handled.** -/
theorem jobRow_eq_ok (index : ℕ) : (∀ word ∈ job.command, Writable word) ∧ (∃ row record,
      jobRow py args index job res = .ok (row, record) ∧ row.CanWrite ∧ record.depth ≤ py.encodeDepth) ↔
    Handled py args job res := by
  constructor
  · rintro ⟨hcommand, row, record, hjob, hwrite, hdepth⟩
    obtain ⟨before, process, after, hbefore, hrun, hafter, hrow, rfl⟩ := jobRow_iff.mp hjob
    obtain ⟨hread, hfail, hfine⟩ := (settle_eq_ok _ rfl).mp ⟨row, hrow, hwrite.1⟩
    have hsnapshots := (writable_snapshotErrors hbefore hafter).mp (snapshotErrors_of_settle hrow ▸ hwrite.2)
    have hwritten := (depth_recordOf py.encodeDepth_ge _ _ _ _ _ _).mp hdepth
    simp only [examine_fst] at hwritten
    rw [(run_spec hrun).1] at hread hwritten
    exact {
      command := hcommand
      decodes := ⟨(run_eq_ok _ _).mp ⟨_, hrun⟩, fun cmd hcmd =>
        ⟨runs_eq_ok.mp ⟨_, hbefore⟩ cmd hcmd, runs_eq_ok.mp ⟨_, hafter⟩ cmd hcmd⟩⟩
      reasons := ⟨(writable_failure hrun).mp hfail, hsnapshots⟩
      read := hread
      written := hwritten
      fine := (fine_iff hrun _).mp hfine }
  · intro h
    obtain ⟨process, hrun⟩ := (run_eq_ok job.command args.timeout).mpr h.decodes.1
    obtain ⟨before, hbefore⟩ := runs_eq_ok.mpr fun cmd hcmd => (h.decodes.2 cmd hcmd).1
    obtain ⟨after, hafter⟩ := runs_eq_ok.mpr fun cmd hcmd => (h.decodes.2 cmd hcmd).2
    have hread : loadsText py process.stdout ≠ .error .recursionError := (run_spec hrun).1 ▸ h.read
    obtain ⟨row, hrow, herror⟩ :=
      (settle_eq_ok (Row.start index job (snapshotErrors before after)) rfl).mpr
        ⟨hread, (writable_failure hrun).mpr h.reasons.1, (fine_iff hrun _).mpr h.fine⟩
    refine ⟨h.command, row, _, jobRow_iff.mpr ⟨before, process, after, hbefore, hrun, hafter, hrow, rfl⟩,
      ⟨herror, ?_⟩, ?_⟩
    · rw [snapshotErrors_of_settle hrow]
      exact (writable_snapshotErrors hbefore hafter).mpr h.reasons.2
    · refine (depth_recordOf py.encodeDepth_ge _ _ _ _ _ _).mpr fun payload hpayload => ?_
      rw [examine_fst, (run_spec hrun).1] at hpayload
      exact h.written payload hpayload

/-- What the row of a job says. -/
structure RowOf (index : ℕ) (job : Job) (res : Results) (row : Row) : Prop where
  rep : row.rep = job.rep
  streams : row.streams = job.streams
  direction : row.direction = job.direction
  artifact : row.artifact = artifactName index job
  ok : row.status = .ok → res.process.Succeeded ∧ row.localBps.isSome ∧
    ∀ n ∈ row.numbers, ∀ v ∈ n, v.Usable
  failed : row.status = .failed → row.error.isSome

theorem rowOf_of_jobRow (h : jobRow py args index job res = .ok (row, record)) :
    RowOf index job res row := by
  obtain ⟨before, process, after, -, hrun, -, hrow, -⟩ := jobRow_iff.mp h
  rcases settle_spec hrow with ⟨m, hm, rfl⟩ | ⟨text, rfl⟩
  · refine ⟨rfl, rfl, rfl, rfl, fun _ => ?_, nofun⟩
    rw [examine] at hm
    cases hload : loadsText py process.stdout with
    | error e =>
        rw [hload] at hm
        cases hm
    | ok payload =>
        rw [hload] at hm
        cases hfail : process.failure with
        | some t =>
            simp only [hfail] at hm
            cases hm
        | none =>
            simp only [hfail] at hm
            have husable := usable_of_metrics hm
            have hsucc : res.process.Succeeded := by
              rcases (failure_eq_none hrun).mp hfail with hsucc | hempty
              · exact hsucc
              · rw [(run_spec hrun).1, hempty] at hload
                exact absurd hload (loadsText_nil py payload)
            exact ⟨hsucc, husable.2, husable.1⟩
  · exact ⟨rfl, rfl, rfl, rfl, nofun, fun _ => rfl⟩

theorem record_of_jobRow (h : jobRow py args index job res = .ok (row, record)) :
    ∃ entries, record = .dict entries ∧ get entries "summary" .null = row.toValue := by
  obtain ⟨before, process, after, -, -, -, -, rfl⟩ := jobRow_iff.mp h
  exact get_recordOf _ _ _ _ _ _

end Jobs

end Rtl812x.Tools
