import Mathlib.Data.List.Basic
import Rtl812x.Tools.BenchmarkRows

/-!
# Runs of the benchmark script

The loop of `main` over any list of jobs, whatever the processes do.

* `jobStep_eq_ok` — the body of the loop ends without an exception exactly where the job is handled
  (`Handled`); `jobStep_reported` — and what is written then;
* `fileIndex_artifactName` — the number at the front of an artifact's name tells the artifacts apart;
* `Recorded` — every job has one row, in the order of the jobs, and one artifact with that row in it, and the
  last summaries have all rows; `LoopInv.step`, `LoopInv.loop` — one job and a whole run keep it;
* `mainLoop_records_iff` — **every job is recorded exactly if every job is handled**;
* `mainLoop_raises` — outputs that end the script, a throughput of `10 ^ 309` among them.
-/

namespace Rtl812x.Tools

open Text Json

/-! ### The body of the loop -/

theorem rate_eq_ok {row : Row} (hsome : row.localBps.isSome) (husable : ∀ v ∈ row.localBps, v.Usable) :
    ∃ text, rate row = .ok text ∧ Writable text := by
  obtain ⟨v, hv⟩ := Option.isSome_iff_exists.mp hsome
  obtain ⟨x, hx⟩ := Option.ne_none_iff_exists'.mp (husable v hv).1
  obtain ⟨y, hy⟩ := Option.ne_none_iff_exists'.mp (x.divide_ne_none (show 2 ≤ 1000000000 by decide))
  refine ⟨y.fixed3 ++ lit " Gbit/s", ?_, y.writable_fixed3.append (writable_lit _)⟩
  rw [rate, hv]
  dsimp only
  rw [hx, Option.bind_some, hy]

/-- The line of a row is printed if its error can be. -/
theorem lineOf_eq_ok {index : ℕ} {job : Job} {res : Results} {row : Row} (hrow : RowOf index job res row)
    (hwrite : row.CanWrite) : ∃ line, lineOf row = .ok line ∧ Writable line := by
  have hline : ∀ text, Writable text →
      Writable (row.artifact ++ lit ": " ++ lit row.status.name ++ lit " " ++ text) := by
    intro text htext
    simp only [writable_append, writable_lit, hrow.artifact, writable_artifactName, htext, and_self]
  cases hstatus : row.status with
  | ok =>
      obtain ⟨-, hsome, husable⟩ := hrow.ok hstatus
      obtain ⟨text, hrate, htext⟩ := rate_eq_ok hsome (husable _ (List.mem_cons_self ..))
      exact ⟨_, by rw [lineOf, hstatus, hrate]; rfl, hstatus ▸ hline text htext⟩
  | failed =>
      obtain ⟨text, herror⟩ := Option.isSome_iff_exists.mp (hrow.failed hstatus)
      exact ⟨_, by rw [lineOf, hstatus, herror]; rfl, hstatus ▸ hline text (hwrite.1 text herror)⟩

/-! ### What is written -/

def State.wrote (s : State) (files : List (Str × Content)) : State := { s with files := s.files ++ files }

def State.printed (s : State) (line : Str) : State := { s with console := s.console ++ [line] }

theorem ite_eq_ok {α : Type} {c : Prop} [Decidable c] {a b : α} {e : Exc} :
    (if c then .ok a else .error e : Except Exc α) = .ok b ↔ c ∧ b = a := by
  split
  · rename_i h
    constructor
    · intro he
      cases he
      exact ⟨h, rfl⟩
    · rintro ⟨-, rfl⟩
      rfl
  · rename_i h
    exact iff_of_false nofun fun he => h he.1

section Write

variable {py : Interpreter} {name text : Str} {value : Value} {s s' : State}

theorem print_eq_ok : print text s = .ok s' ↔ Writable text ∧ s' = s.printed text := by
  rw [print]
  exact ite_eq_ok

theorem writeJson_eq_ok : writeJson py name value s = .ok s' ↔
    value.depth ≤ py.encodeDepth ∧ s' = s.wrote [(name, .json value)] := by
  rw [writeJson]
  exact ite_eq_ok

theorem writeCsv_eq_ok : writeCsv name text s = .ok s' ↔ Writable text ∧ s' = s.wrote [(name, .csv text)] := by
  rw [writeCsv]
  exact ite_eq_ok

end Write

/-- The state after the row of a job was written. -/
def reported (row : Row) (record : Value) (line : Str) (s : State) : State where
  files := s.files ++ [(row.artifact, .json record),
    (lit "summary.json", .json (.list ((s.summary ++ [row]).map Row.toValue))),
    (lit "summary.csv", .csv (csvText (s.summary ++ [row])))]
  summary := s.summary ++ [row]
  console := s.console ++ [line]

theorem depth_summary (rows : List Row) : (Value.list (rows.map Row.toValue)).depth ≤ 2 :=
  depth_list_le_iff.mpr (List.forall_mem_map.mpr fun row _ => row.depth_toValue)

/-- The rows of the state and their artifacts' names can be written. -/
def RowsWritable (s : State) : Prop := ∀ row ∈ s.summary, row.CanWrite ∧ Writable row.artifact

theorem writable_csv_snoc {s : State} (hs : RowsWritable s) {row : Row} (hname : Writable row.artifact) :
    Writable (csvText (s.summary ++ [row])) ↔ row.CanWrite := by
  rw [writable_csvText, List.forall_mem_append, List.forall_mem_singleton, row.writable_cells hname]
  exact and_iff_right fun r hr => (r.writable_cells (hs r hr).2).mpr (hs r hr).1

section Step

variable {py : Interpreter} {args : Args} {index : ℕ} {job : Job} {res : Results} {row : Row} {record : Value}
  {s s' : State}

/-- What is written for a row: all of it, if the row and the record can be written. -/
theorem report_eq_ok (hs : RowsWritable s) (hrow : RowOf index job res row) :
    report py row record s = .ok s' ↔ row.CanWrite ∧ record.depth ≤ py.encodeDepth ∧
      ∃ line, lineOf row = .ok line ∧ s' = reported row record line s := by
  have hname : Writable row.artifact := hrow.artifact ▸ writable_artifactName index job
  have hcsv := writable_csv_snoc hs hname
  have hsummary : (Value.list ((s.summary ++ [row]).map Row.toValue)).depth ≤ py.encodeDepth :=
    Nat.le_trans (depth_summary _) (Nat.le_trans (by decide) py.encodeDepth_ge)
  rw [report]
  constructor
  · intro h
    obtain ⟨s₁, h₁, h⟩ := bind_eq_ok.mp h
    obtain ⟨hdepth, rfl⟩ := writeJson_eq_ok.mp h₁
    obtain ⟨s₂, h₂, h⟩ := bind_eq_ok.mp h
    obtain ⟨-, rfl⟩ := writeJson_eq_ok.mp h₂
    obtain ⟨s₃, h₃, h⟩ := bind_eq_ok.mp h
    obtain ⟨hwrite, rfl⟩ := writeCsv_eq_ok.mp h₃
    obtain ⟨line, hline, h⟩ := bind_eq_ok.mp h
    obtain ⟨-, rfl⟩ := print_eq_ok.mp h
    refine ⟨hcsv.mp hwrite, hdepth, line, hline, ?_⟩
    simp [reported, State.wrote, State.printed]
  · rintro ⟨hwrite, hdepth, line, hline, rfl⟩
    obtain ⟨line', hline', hprint⟩ := lineOf_eq_ok hrow hwrite
    obtain rfl : line' = line := by
      rw [hline] at hline'
      cases hline'
      rfl
    refine bind_eq_ok.mpr ⟨_, writeJson_eq_ok.mpr ⟨hdepth, rfl⟩, bind_eq_ok.mpr ⟨_,
      writeJson_eq_ok.mpr ⟨hsummary, rfl⟩, bind_eq_ok.mpr ⟨_, writeCsv_eq_ok.mpr ⟨hcsv.mpr hwrite, rfl⟩,
      bind_eq_ok.mpr ⟨line', hline, print_eq_ok.mpr ⟨hprint, ?_⟩⟩⟩⟩⟩
    simp [reported, State.wrote, State.printed]

/-- What the body of the loop leaves. -/
theorem jobStep_reported (hs : RowsWritable s) (h : jobStep py args index job res s = .ok s') :
    ∃ row record line, jobRow py args index job res = .ok (row, record) ∧ row.CanWrite ∧
      s' = reported row record line (s.printed (shellJoin job.command)) := by
  rw [jobStep] at h
  obtain ⟨s₁, h₁, h⟩ := bind_eq_ok.mp h
  obtain ⟨-, rfl⟩ := print_eq_ok.mp h₁
  obtain ⟨⟨row, record⟩, hjob, h⟩ := bind_eq_ok.mp h
  obtain ⟨hwrite, -, line, -, rfl⟩ := (report_eq_ok (s := s.printed _) hs (rowOf_of_jobRow hjob)).mp h
  exact ⟨row, record, line, hjob, hwrite, rfl⟩

/-- **The body of the loop ends without an exception exactly where the job is handled.** -/
theorem jobStep_eq_ok (index : ℕ) (hs : RowsWritable s) :
    (∃ s', jobStep py args index job res s = .ok s') ↔ Handled py args job res := by
  rw [← jobRow_eq_ok index, ← writable_shellJoin, jobStep]
  constructor
  · rintro ⟨s', h⟩
    obtain ⟨s₁, h₁, h⟩ := bind_eq_ok.mp h
    obtain ⟨hcommand, rfl⟩ := print_eq_ok.mp h₁
    obtain ⟨⟨row, record⟩, hjob, h⟩ := bind_eq_ok.mp h
    obtain ⟨hwrite, hdepth, -⟩ := (report_eq_ok (s := s.printed _) hs (rowOf_of_jobRow hjob)).mp h
    exact ⟨hcommand, row, record, hjob, hwrite, hdepth⟩
  · rintro ⟨hcommand, row, record, hjob, hwrite, hdepth⟩
    have hrow := rowOf_of_jobRow hjob
    obtain ⟨line, hline, -⟩ := lineOf_eq_ok hrow hwrite
    exact ⟨_, bind_eq_ok.mpr ⟨_, print_eq_ok.mpr ⟨hcommand, rfl⟩, bind_eq_ok.mpr ⟨(row, record), hjob,
      (report_eq_ok (s := s.printed _) hs hrow).mpr ⟨hwrite, hdepth, line, hline, rfl⟩⟩⟩⟩

end Step

/-! ### Artifacts -/

/-- The number at the front of a file's name. -/
def fileIndex (name : Str) : ℕ := ofDecimal (name.takeWhile isDigit)

theorem isDigit_of_mem_decimal2 {n c : ℕ} (hc : c ∈ decimal2 n) : isDigit c = true := by
  have := mem_decimal2 hc
  simpa [isDigit] using this

/-- The name of an artifact starts with the number of its job. -/
theorem fileIndex_artifactName (index : ℕ) (job : Job) : fileIndex (artifactName index job) = index := by
  obtain ⟨tail, htail⟩ : ∃ tail, artifactName index job = decimal2 index ++ 0x2D :: tail :=
    ⟨_, by simp only [artifactName, List.append_assoc]; rfl⟩
  have hstop : (0x2D :: tail).takeWhile isDigit = [] := List.takeWhile_cons_of_neg (by decide)
  rw [fileIndex, htail, List.takeWhile_append_of_pos fun c hc => isDigit_of_mem_decimal2 hc, hstop,
    List.append_nil, ofDecimal_decimal2]

/-- The summaries are no artifacts. -/
theorem summary_ne {name : Str} (hpos : 0 < fileIndex name) (summary : String)
    (hzero : fileIndex (lit summary) = 0) : lit summary ≠ name := by
  rintro rfl
  omega

/-- Among the files there is exactly one with the name of the row's artifact, and the row is in it. -/
def Filed (s : State) (row : Row) : Prop :=
  ∃ entries, s.files.filter (fun file => file.1 = row.artifact) = [(row.artifact, .json (.dict entries))] ∧
    get entries "summary" .null = row.toValue

/-- **Every job is recorded**: it has one row, in the order of the jobs, and one artifact with that row in it;
and the last summaries that were written have all rows. -/
structure Recorded (jobs : List (Job × Results)) (s : State) : Prop where
  length : s.summary.length = jobs.length
  row : ∀ i job res, jobs[i]? = some (job, res) →
    ∃ row, s.summary[i]? = some row ∧ RowOf (i + 1) job res row ∧ Filed s row
  summaries : jobs ≠ [] → ∃ files, s.files = files ++
    [(lit "summary.json", .json (.list (s.summary.map Row.toValue))),
      (lit "summary.csv", .csv (csvText s.summary))]

/-- What a run keeps: the jobs so far are recorded, no file has the number of a later job, and the rows can be
written. -/
structure LoopInv (jobs : List (Job × Results)) (s : State) : Prop where
  recorded : Recorded jobs s
  index : ∀ file ∈ s.files, fileIndex file.1 ≤ jobs.length
  writable : RowsWritable s

theorem loopInv_init : LoopInv [] ⟨[], [], []⟩ where
  recorded := ⟨rfl, fun i job res h => absurd h (by simp), fun h => absurd rfl h⟩
  index file h := absurd h List.not_mem_nil
  writable row h := absurd h List.not_mem_nil

section Run

variable {py : Interpreter} {args : Args} {jobs done : List (Job × Results)} {job : Job} {res : Results}
  {s s' : State}

theorem Filed.printed {row : Row} (h : Filed s row) (line : Str) : Filed (s.printed line) row := h

/-- What is written for a row files it, if nothing had the name of its artifact. -/
theorem filed_reported {row : Row} {line : Str} {record : Value} {entries : Dict}
    (hfresh : s.files.filter (fun file => file.1 = row.artifact) = []) (hpos : 0 < fileIndex row.artifact)
    (hrecord : record = .dict entries) (hget : get entries "summary" .null = row.toValue) :
    Filed (reported row record line s) row := by
  refine ⟨entries, ?_, hget⟩
  rw [reported, List.filter_append, hfresh, List.nil_append, hrecord]
  simp [summary_ne hpos "summary.json" rfl, summary_ne hpos "summary.csv" rfl]

/-- What is written for a later job leaves the artifact of a row alone. -/
theorem Filed.mono {row row' : Row} {record : Value} {line : Str} (h : Filed s row)
    (hne : row'.artifact ≠ row.artifact) (hpos : 0 < fileIndex row.artifact) :
    Filed (reported row' record line s) row := by
  obtain ⟨entries, hfilter, hget⟩ := h
  refine ⟨entries, ?_, hget⟩
  rw [reported, List.filter_append, hfilter]
  simp [hne, summary_ne hpos "summary.json" rfl, summary_ne hpos "summary.csv" rfl]

/-- **One job more.** -/
theorem LoopInv.step (h : LoopInv done s) (hstep : jobStep py args (done.length + 1) job res s = .ok s') :
    LoopInv (done ++ [(job, res)]) s' := by
  obtain ⟨row, record, line, hjob, hwrite, rfl⟩ := jobStep_reported h.writable hstep
  have hrow := rowOf_of_jobRow hjob
  have hindex : fileIndex row.artifact = done.length + 1 := hrow.artifact ▸ fileIndex_artifactName _ _
  obtain ⟨entries, hrecord, hget⟩ := record_of_jobRow hjob
  have hfresh : s.files.filter (fun file => file.1 = row.artifact) = [] := by
    refine List.filter_eq_nil_iff.mpr fun file hfile hname => ?_
    have hle := h.index file hfile
    rw [decide_eq_true_eq.mp hname] at hle
    omega
  refine ⟨⟨?_, ?_, fun _ => ?_⟩, ?_, ?_⟩
  · simp [reported, State.printed, h.recorded.length]
  · intro i job' res' hi
    rcases Nat.lt_trichotomy i done.length with hlt | rfl | hgt
    · rw [List.getElem?_append_left hlt] at hi
      obtain ⟨row', hget, hrow', hfiled⟩ := h.recorded.row i job' res' hi
      have hindex' : fileIndex row'.artifact = i + 1 := hrow'.artifact ▸ fileIndex_artifactName _ _
      refine ⟨row', ?_, hrow', ?_⟩
      · exact (List.getElem?_append_left (by rw [State.printed, h.recorded.length]; exact hlt)).trans hget
      · exact Filed.mono (hfiled.printed _) (fun he => by rw [he] at hindex; omega) (by omega)
    · rw [List.getElem?_concat_length] at hi
      cases hi
      refine ⟨row, ?_, hrow, ?_⟩
      · rw [reported, State.printed, ← h.recorded.length, List.getElem?_concat_length]
      · exact filed_reported hfresh (by omega) hrecord hget
    · rw [List.getElem?_eq_none (by simp; omega)] at hi
      cases hi
  · exact ⟨s.files ++ [(row.artifact, .json record)], by simp [reported, State.printed]⟩
  · intro file hfile
    rw [reported, List.mem_append] at hfile
    rw [List.length_append, List.length_singleton]
    rcases hfile with hold | hnew
    · have := h.index file hold
      omega
    · simp only [List.mem_cons, List.not_mem_nil, or_false] at hnew
      rcases hnew with rfl | rfl | rfl
      · exact hindex.le
      · exact Nat.zero_le _
      · exact Nat.zero_le _
  · refine List.forall_mem_append.mpr ⟨h.writable, List.forall_mem_singleton.mpr ⟨hwrite, ?_⟩⟩
    exact hrow.artifact ▸ writable_artifactName _ _

/-- **A whole run.** -/
theorem LoopInv.loop (h : LoopInv done s) (hloop : loop py args (done.length + 1) jobs s = .ok s') :
    LoopInv (done ++ jobs) s' := by
  induction jobs generalizing done s with
  | nil =>
      cases hloop
      rwa [List.append_nil]
  | cons p jobs ih =>
      obtain ⟨s₁, hstep, hrest⟩ := bind_eq_ok.mp hloop
      rw [List.append_cons]
      exact ih (h.step hstep) (by rw [List.length_append, List.length_singleton]; exact hrest)

/-- A run ends without an exception exactly if each of its jobs is handled. -/
theorem loop_eq_ok (h : LoopInv done s) :
    (∃ s', loop py args (done.length + 1) jobs s = .ok s') ↔ ∀ p ∈ jobs, Handled py args p.1 p.2 := by
  induction jobs generalizing done s with
  | nil => exact iff_of_true ⟨s, rfl⟩ fun p hp => absurd hp List.not_mem_nil
  | cons p jobs ih =>
      rw [List.forall_mem_cons, ← jobStep_eq_ok (done.length + 1) h.writable]
      have hnext : ∀ s₁, jobStep py args (done.length + 1) p.1 p.2 s = .ok s₁ →
          ((∃ s', loop py args (done.length + 1 + 1) jobs s₁ = .ok s') ↔
            ∀ p ∈ jobs, Handled py args p.1 p.2) := by
        intro s₁ hstep
        have hrest := ih (h.step hstep)
        rwa [List.length_append, List.length_singleton] at hrest
      constructor
      · rintro ⟨s', hloop⟩
        obtain ⟨s₁, hstep, hrest⟩ := bind_eq_ok.mp hloop
        exact ⟨⟨s₁, hstep⟩, (hnext s₁ hstep).mp ⟨s', hrest⟩⟩
      · rintro ⟨⟨s₁, hstep⟩, hall⟩
        obtain ⟨s', hrest⟩ := (hnext s₁ hstep).mpr hall
        exact ⟨s', bind_eq_ok.mpr ⟨s₁, hstep, hrest⟩⟩

end Run

/-- **Every job is recorded, and no exception ends the loop, exactly if every job is handled.** -/
theorem mainLoop_records_iff (py : Interpreter) (args : Args) (jobs : List (Job × Results)) :
    (∃ s, mainLoop py args jobs = .ok s ∧ Recorded jobs s) ↔ ∀ p ∈ jobs, Handled py args p.1 p.2 := by
  rw [← loop_eq_ok loopInv_init]
  constructor
  · rintro ⟨s, hloop, -⟩
    exact ⟨s, hloop⟩
  · rintro ⟨s, hloop⟩
    exact ⟨s, hloop, (loopInv_init.loop hloop).recorded⟩

/-! ### Jobs that end the script -/

/-- The default limits, with ASCII as what can be shown. -/
def defaultLimits : Interpreter where
  scanDepth := 990
  encodeDepth := 980
  reprDepth := 990
  maxStrDigits := some 4300
  isPrintable c := decide (0x20 ≤ c) && decide (c ≤ 0x7E)
  encodeDepth_ge := by decide
  not_isPrintable c hc := by
    have := hc.1
    simp
    omega

def defaultArgs : Args := { interface := lit "en10", time := 10, omitTime := 2 }

def octets (s : String) : List UInt8 := s.toList.map fun c => UInt8.ofNat c.toNat

/-- A job whose process writes these octets and succeeds; the snapshots write nothing. -/
def jobWriting (stdout : List UInt8) : Job × Results where
  fst := { rep := 1, streams := 1, direction := .tx, command := [lit "iperf3", lit "-J"] }
  snd := {
    started := lit "2026-01-01T00:00:00+00:00"
    before := fun _ => .completed 0 [] []
    process := .completed 0 stdout []
    after := fun _ => .completed 0 [] [] }

/-- A document with the given throughput. -/
def throughputDocument (digits : List UInt8) : List UInt8 :=
  octets "\x7b\"end\": \x7b\"sum_sent\": \x7b\"bits_per_second\": " ++ digits ++ octets "\x7d\x7d\x7d"

/-- The script ends with the exception. -/
def raises (e : Exc) : Except Exc State → Bool
  | .error e' => e' == e
  | .ok _ => false

theorem eq_error_of_raises {e : Exc} {r : Except Exc State} (h : raises e r = true) : r = .error e := by
  cases r with
  | ok s => cases h
  | error e' => rw [eq_of_beq h]

/-- **Outputs of a process that succeeded that end the script**: an integer no float can hold, for which
`math.isfinite` raises an `OverflowError`; octets that are not UTF-8; and an error with a surrogate in it. -/
theorem mainLoop_raises :
    mainLoop defaultLimits defaultArgs
        [jobWriting (throughputDocument (octets "1" ++ List.replicate 309 0x30))] = .error .overflowError ∧
      mainLoop defaultLimits defaultArgs [jobWriting [0xFF]] = .error .unicodeDecodeError ∧
      mainLoop defaultLimits defaultArgs [jobWriting (octets "\x7b\"error\": \"\\ud800\"\x7d")] =
        .error .unicodeEncodeError := by
  refine ⟨?_, ?_, ?_⟩
  all_goals
    refine eq_error_of_raises ?_
    decide +kernel

-- a job that is recorded, with the lines that are printed for it
example : ((mainLoop defaultLimits defaultArgs
      [jobWriting (throughputDocument (octets "941234567"))]).toOption.map
    fun s => (s.summary.map Row.status, s.console)) =
    some ([.ok], [lit "iperf3 -J", lit "01-r1-p1-tx.json: ok 0.941 Gbit/s"]) := by
  decide +kernel

end Rtl812x.Tools
