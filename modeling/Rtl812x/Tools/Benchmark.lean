import Rtl812x.Lib.Json

/-!
# The benchmark script

`tools/benchmark_ndk.py`: a list of iperf3 runs, each with snapshots of the interface before and after it.
What a process did is an input (`Outcome`, `Results`); what the script makes of it is computed: the texts it
reads, the document `json.loads` finds in them, the metrics, the row and the files.

* `number`, `metrics` — the values of a summary, with the errors they raise;
* `run` — a process, as the script records it;
* `jobRow` — a job up to its row and the record of its artifact; `jobStep` — the whole body of the loop;
* `mainLoop` — the loop of `main`.

An exception that is not caught ends the script.  The limits of the interpreter (how deep a document may be
nested for reading, writing and showing it, and how many digits an integer may have) are parameters.  The
encoding of the files, of the console and of what the processes write is UTF-8.
-/

namespace Rtl812x.Tools

open Text Json

/-- The limits of the interpreter, and its table of the characters that can be shown.  The record of a job
without its document is nested four deep, which every interpreter can write. -/
structure Interpreter where
  scanDepth : ℕ
  encodeDepth : ℕ
  reprDepth : ℕ
  maxStrDigits : Option ℕ
  isPrintable : ℕ → Bool
  encodeDepth_ge : 4 ≤ encodeDepth
  not_isPrintable : ∀ c, Surrogate c → isPrintable c = false

/-- The exceptions. -/
inductive Exc where
  | valueError (text : Str)
  | typeError (text : Str)
  | overflowError
  | recursionError
  | unicodeDecodeError
  | unicodeEncodeError
deriving DecidableEq

/-- What `except (ValueError, TypeError)` catches, with `str(exc)`.  (The Unicode errors are `ValueError`s
too; the code raises them outside the `try`.) -/
def Exc.caught : Exc → Option Str
  | .valueError text => some text
  | .typeError text => some text
  | _ => none

/-! ### Values as Python shows them -/

def hexChar (d : ℕ) : ℕ := if d < 10 then 0x30 + d else 0x61 + (d - 10)

/-- The last `width` hexadecimal digits. -/
def hexDigits (width n : ℕ) : Str := (List.range width).reverse.map fun i => hexChar (n / 16 ^ i % 16)

/-- A character of a string literal. -/
def reprChar (py : Interpreter) (quote c : ℕ) : Str :=
  if c = quote ∨ c = 0x5C then [0x5C, c]
  else if c = 0x09 then lit "\\t"
  else if c = 0x0A then lit "\\n"
  else if c = 0x0D then lit "\\r"
  else if py.isPrintable c then [c]
  else if c < 0x100 then lit "\\x" ++ hexDigits 2 c
  else if c < 0x10000 then lit "\\u" ++ hexDigits 4 c
  else lit "\\U" ++ hexDigits 8 c

/-- `repr(s)`: in double quotation marks if the text has only single ones. -/
def reprStr (py : Interpreter) (s : Str) : Str :=
  let quote := if 0x27 ∈ s ∧ 0x22 ∉ s then 0x22 else 0x27
  [quote] ++ s.flatMap (reprChar py quote) ++ [quote]

mutual

/-- `repr(v)`. -/
def reprValue (py : Interpreter) : Value → Str
  | .null => lit "None"
  | .bool true => lit "True"
  | .bool false => lit "False"
  | .int n => decimalInt n
  | .float x => x.repr
  | .str s => reprStr py s
  | .list items => [0x5B] ++ join (lit ", ") (reprItems py items) ++ [0x5D]
  | .dict entries => [0x7B] ++ join (lit ", ") (reprEntries py entries) ++ [0x7D]

def reprItems (py : Interpreter) : List Value → List Str
  | [] => []
  | v :: l => reprValue py v :: reprItems py l

def reprEntries (py : Interpreter) : List (Str × Value) → List Str
  | [] => []
  | (key, v) :: l => (reprStr py key ++ lit ": " ++ reprValue py v) :: reprEntries py l

end

/-- `str(v)`: a string as it is, anything else by its `repr`. -/
def str (py : Interpreter) : Value → Except Exc Str
  | .str s => .ok s
  | v => if v.depth ≤ py.reprDepth then .ok (reprValue py v) else .error .recursionError

/-- `bool(v)`. -/
def truthy : Value → Bool
  | .null => false
  | .bool b => b
  | .int n => n != 0
  | .float x => x.units != 0
  | .str s => s != []
  | .list items => !items.isEmpty
  | .dict entries => !entries.isEmpty

/-! ### Reading a document -/

/-- `int(token)`. -/
def parseInt (py : Interpreter) (token : Str) : Except Str Value :=
  let digits := token.dropWhile (· == 0x2D)
  match py.maxStrDigits.filter (· < digits.length) with
  | some limit => .error (lit "Exceeds the limit (" ++ decimal limit ++
      lit " digits) for integer string conversion: value has " ++ decimal digits.length ++
      lit " digits; use sys.set_int_max_str_digits() to increase the limit")
  | none => .ok (.int (if token.head? = some 0x2D then -(ofDecimal digits : ℤ) else ofDecimal digits))

def finiteFloat (token : Str) : Except Str Value :=
  match Binary64.ofDecimalToken token with
  | some x => .ok (.float x)
  | none => .error (lit "nonfinite JSON number: " ++ token)

def invalidConstant (token : Str) : Except Str Value :=
  .error (lit "nonstandard JSON constant: " ++ token)

def hooks (py : Interpreter) : Hooks where
  parseInt := parseInt py
  parseFloat := finiteFloat
  parseConstant := invalidConstant

/-- `json.loads(text, parse_constant=invalid_constant, parse_float=finite_float)`. -/
def loadsText (py : Interpreter) (text : Str) : Except LoadError Value :=
  loads (hooks py) py.scanDepth text

/-- The exception for a document that is not read; the scanner's loops are never cut off
(`Json.loads_error`). -/
def excOfLoad : LoadError → Exc
  | .valueError text => .valueError text
  | .recursionError => .recursionError
  | .outOfFuel => .recursionError

/-! ### The metrics -/

/-- A number that is no boolean. -/
inductive Number where
  | int (n : ℤ)
  | float (x : Binary64)
deriving DecidableEq

/-- `isinstance(value, (int, float))` and no boolean. -/
def asNumber : Value → Option Number
  | .int n => some (.int n)
  | .float x => some (.float x)
  | _ => none

/-- The number as a float, `none` if it is too large. -/
def Number.toFloat : Number → Option Binary64
  | .int n => Binary64.ofInt n
  | .float x => some x

/-- `value < 0`. -/
def Number.isNegative : Number → Bool
  | .int n => decide (n < 0)
  | .float x => x.neg && x.units != 0

def Number.shown : Number → Str
  | .int n => decimalInt n
  | .float x => x.repr

def Number.toValue : Number → Value
  | .int n => .int n
  | .float x => .float x

/-- The check that a value is a finite number and not negative.  `math.isfinite` converts its argument to a
float, which an integer may be too large for. -/
def number (value : Value) (name : String) (required : Bool) : Except Exc (Option Number) :=
  match value, required with
  | .null, false => .ok none
  | value, _ =>
      match asNumber value with
      | none => .error (.valueError (lit "missing or nonnumeric " ++ lit name))
      | some v =>
          if v.toFloat = none then .error .overflowError
          else if v.isNegative then
            .error (.valueError (lit "invalid " ++ lit name ++ lit ": " ++ v.shown))
          else .ok (some v)

inductive Role where
  | sender
  | receiver
deriving DecidableEq

def Role.name : Role → String
  | .sender => "sender"
  | .receiver => "receiver"

structure Metrics where
  localRole : Role
  localBps : Option Number
  senderBps : Option Number
  receiverBps : Option Number
  retransmits : Option Number
  hostCpuPercent : Option Number
  remoteCpuPercent : Option Number

abbrev Dict := List (Str × Value)

/-- The summary objects `sum_sent`, `sum_received` and `cpu_utilization_percent` of a document. -/
def summaries (py : Interpreter) (payload : Value) : Except Exc (Dict × Dict × Dict) :=
  match payload with
  | .dict entries =>
      if truthy (get entries "error" .null) then do
        let text ← str py (get entries "error" .null)
        .error (.valueError text)
      else
        match get entries "end" .null with
        | .dict results =>
            match get results "sum_sent" (.dict []), get results "sum_received" (.dict []),
              get results "cpu_utilization_percent" (.dict []) with
            | .dict sent, .dict received, .dict cpu => .ok (sent, received, cpu)
            | _, _, _ => .error (.valueError (lit "invalid summary objects"))
        | _ => .error (.valueError (lit "missing end results"))
  | _ => .error (.valueError (lit "JSON is not an object"))

/-- The metrics of the summary objects, in the order of the source. -/
def measure (tx : Bool) (sent received cpu : Dict) : Except Exc Metrics := do
  let selected := if tx then sent else received
  let localBps ← number (get selected "bits_per_second" .null) "local throughput" true
  let senderBps ← number (get sent "bits_per_second" .null) "sender throughput" false
  let receiverBps ← number (get received "bits_per_second" .null) "receiver throughput" false
  let retransmits ← number (get sent "retransmits" .null) "sender retransmits" false
  let hostCpuPercent ← number (get cpu "host_total" .null) "host CPU" false
  let remoteCpuPercent ← number (get cpu "remote_total" .null) "remote CPU" false
  .ok { localRole := if tx then .sender else .receiver, localBps, senderBps, receiverBps, retransmits,
        hostCpuPercent, remoteCpuPercent }

/-- TX is the local sender; reverse (RX) is the local receiver. -/
def metrics (py : Interpreter) (payload : Value) (direction : Str) : Except Exc Metrics :=
  if direction ≠ lit "tx" ∧ direction ≠ lit "rx" then
    .error (.valueError (lit "invalid direction: " ++ direction))
  else do
    let (sent, received, cpu) ← summaries py payload
    measure (direction = lit "tx") sent received cpu

/-! ### Processes -/

/-- What a process did: it ended, it was killed after the timeout, or it could not be run. -/
inductive Outcome where
  | completed (returncode : ℤ) (stdout stderr : List UInt8)
  | timeout (stdout stderr : Option (List UInt8))
  | osError (text : Str)

/-- The record of a process. -/
structure Process where
  command : List Str
  returncode : Option ℤ
  stdout : Str
  stderr : Str
  error : Option Str

/-- The text of what a process wrote, as `subprocess.run(…, text=True)` reads it. -/
def textOf (bytes : List UInt8) : Option Str := (decodeStrict bytes).map universalNewlines

/-- The script's `run`.  What a process wrote before the timeout comes as octets and is decoded with
replacements; what a process that ended wrote has to be UTF-8. -/
def run (command : List Str) (timeout : ℕ) : Outcome → Except Exc Process
  | .completed code out err =>
      match textOf out, textOf err with
      | some stdout, some stderr => .ok {
          command, returncode := some code, stdout, stderr,
          error := if code = 0 then none else some (lit "exit status " ++ decimalInt code) }
      | _, _ => .error .unicodeDecodeError
  | .timeout out err => .ok {
      command, returncode := none,
      stdout := decodeReplace (out.getD []), stderr := decodeReplace (err.getD []),
      error := some (lit "timeout after " ++ decimal timeout ++ lit "s") }
  | .osError text => .ok { command, returncode := none, stdout := [], stderr := [], error := some text }

/-- `process["error"]` where it is true. -/
def Process.failure (p : Process) : Option Str := p.error.filter (· ≠ [])

def Process.toValue (p : Process) : Value :=
  .dict [(lit "command", .list (p.command.map .str)), (lit "returncode", p.returncode.elim .null .int),
    (lit "stdout", .str p.stdout), (lit "stderr", .str p.stderr), (lit "error", p.error.elim .null .str)]

/-! ### Jobs and rows -/

inductive Direction where
  | tx
  | rx
deriving DecidableEq

def Direction.name : Direction → String
  | .tx => "tx"
  | .rx => "rx"

structure Job where
  rep : ℕ
  streams : ℕ
  direction : Direction
  command : List Str

/-- What happened during a job: the time it started at, the snapshots before and after it, each by its
command, and the process. -/
structure Results where
  started : Str
  before : List Str → Outcome
  process : Outcome
  after : List Str → Outcome

inductive Status where
  | failed
  | ok
deriving DecidableEq

def Status.name : Status → String
  | .failed => "failed"
  | .ok => "ok"

/-- A row of the summary. -/
structure Row where
  rep : ℕ
  streams : ℕ
  direction : Direction
  status : Status
  error : Option Str
  localRole : Option Role
  localBps : Option Number
  senderBps : Option Number
  receiverBps : Option Number
  retransmits : Option Number
  hostCpuPercent : Option Number
  remoteCpuPercent : Option Number
  snapshotErrors : Str
  artifact : Str

def fields : List String :=
  ["rep", "streams", "direction", "status", "error", "local_role", "local_bps", "sender_bps", "receiver_bps",
    "retransmits", "host_cpu_percent", "remote_cpu_percent", "snapshot_errors", "artifact"]

/-- The numbers of a row that are metrics. -/
def Row.numbers (row : Row) : List (Option Number) :=
  [row.localBps, row.senderBps, row.receiverBps, row.retransmits, row.hostCpuPercent, row.remoteCpuPercent]

/-- The row as an object. -/
def Row.toValue (row : Row) : Value :=
  .dict (fields.map lit |>.zip ([.int row.rep, .int row.streams, .str (lit row.direction.name),
    .str (lit row.status.name), row.error.elim .null .str,
    row.localRole.elim .null fun role => .str (lit role.name)] ++
    row.numbers.map (·.elim .null Number.toValue) ++ [.str row.snapshotErrors, .str row.artifact]))

/-- The row as the cells of a line; what is absent is an empty cell. -/
def Row.cells (row : Row) : List Str :=
  [decimal row.rep, decimal row.streams, lit row.direction.name, lit row.status.name, row.error.getD [],
    row.localRole.elim [] fun role => lit role.name] ++
    row.numbers.map (·.elim [] Number.shown) ++ [row.snapshotErrors, row.artifact]

def artifactName (index : ℕ) (job : Job) : Str :=
  decimal2 index ++ lit "-r" ++ decimal job.rep ++ lit "-p" ++ decimal job.streams ++ lit "-" ++
    lit job.direction.name ++ lit ".json"

/-- The row of a job before its document is read. -/
def Row.start (index : ℕ) (job : Job) (snapshotErrors : Str) : Row where
  rep := job.rep
  streams := job.streams
  direction := job.direction
  status := .failed
  error := none
  localRole := none
  localBps := none
  senderBps := none
  receiverBps := none
  retransmits := none
  hostCpuPercent := none
  remoteCpuPercent := none
  snapshotErrors
  artifact := artifactName index job

/-- `row.update(metrics(…), status="ok")`. -/
def Row.update (row : Row) (m : Metrics) : Row :=
  { row with
    status := .ok, localRole := some m.localRole, localBps := m.localBps, senderBps := m.senderBps,
    receiverBps := m.receiverBps, retransmits := m.retransmits, hostCpuPercent := m.hostCpuPercent,
    remoteCpuPercent := m.remoteCpuPercent }

/-! ### What is written -/

inductive Content where
  | json (value : Value)
  | csv (text : Str)

/-- What the script has written and printed so far, and the rows. -/
structure State where
  files : List (Str × Content)
  summary : List Row
  console : List Str

def print (line : Str) (s : State) : Except Exc State :=
  if Writable line then .ok { s with console := s.console ++ [line] } else .error .unicodeEncodeError

/-- `write_json`: all that is not ASCII is escaped, so the text can always be written; only the nesting is
limited. -/
def writeJson (py : Interpreter) (name : Str) (value : Value) (s : State) : Except Exc State :=
  if value.depth ≤ py.encodeDepth then .ok { s with files := s.files ++ [(name, .json value)] }
  else .error .recursionError

/-- A cell of a CSV file, in quotation marks where it has to be. -/
def csvCell (cell : Str) : Str :=
  if cell.any (· ∈ lit ",\"\r\n") then
    lit "\"" ++ cell.flatMap (fun c => if c = 0x22 then [c, c] else [c]) ++ lit "\""
  else cell

def csvLine (cells : List Str) : Str := join (lit ",") (cells.map csvCell) ++ lit "\r\n"

def csvText (rows : List Row) : Str := ((fields.map lit :: rows.map Row.cells).map csvLine).flatten

def writeCsv (name text : Str) (s : State) : Except Exc State :=
  if Writable text then .ok { s with files := s.files ++ [(name, .csv text)] }
  else .error .unicodeEncodeError

/-- The characters `shlex.quote` leaves alone. -/
def shellSafe (c : ℕ) : Bool :=
  isDigit c || (0x41 ≤ c && c ≤ 0x5A) || (0x61 ≤ c && c ≤ 0x7A) || decide (c ∈ lit "_@%+=:,./-")

/-- `shlex.quote`. -/
def shellQuote (word : Str) : Str :=
  if word = [] then lit "''"
  else if word.all shellSafe then word
  else lit "'" ++ word.flatMap (fun c => if c = 0x27 then lit "'\"'\"'" else [c]) ++ lit "'"

def shellJoin (command : List Str) : Str := join (lit " ") (command.map shellQuote)

/-! ### The loop -/

/-- The arguments the loop uses. -/
structure Args where
  interface : Str
  time : ℕ
  omitTime : ℕ

def Args.snapshots (args : Args) : List (List Str) :=
  [[lit "netstat", lit "-I", args.interface, lit "-qq"], [lit "ifconfig", args.interface]]

def Args.timeout (args : Args) : ℕ := args.time + args.omitTime + 20

/-- `"; ".join(item["error"] for item in record["before"] + record["after"] if item["error"])`. -/
def snapshotErrors (before after : List Process) : Str :=
  join (lit "; ") ((before ++ after).filterMap Process.failure)

/-- The body of the `try`: the document if it was read, and what came of it. -/
def examine (py : Interpreter) (direction : Direction) (process : Process) :
    Option Value × Except Exc Metrics :=
  match loadsText py process.stdout with
  | .error e => (none, .error (excOfLoad e))
  | .ok payload =>
      (some payload,
        match process.failure with
        | some text => .error (.valueError text)
        | none => metrics py payload (lit direction.name))

/-- The row after the `try`: the metrics, or the text of the error that was caught. -/
def settle (row : Row) (process : Process) : Except Exc Metrics → Except Exc Row
  | .ok m => .ok (row.update m)
  | .error e =>
      match e.caught with
      | some text => .ok { row with error := some (process.failure.getD text) }
      | none => .error e

/-- The record that is written as the artifact. -/
def recordOf (started : Str) (before after : List Process) (process : Process) (iperf : Option Value)
    (row : Row) : Value :=
  .dict ([(lit "started_utc", .str started), (lit "before", .list (before.map Process.toValue)),
    (lit "process", process.toValue), (lit "after", .list (after.map Process.toValue))] ++
    (iperf.map fun payload => (lit "iperf", payload)).toList ++ [(lit "summary", row.toValue)])

/-- A job up to its row and the record of its artifact. -/
def jobRow (py : Interpreter) (args : Args) (index : ℕ) (job : Job) (res : Results) :
    Except Exc (Row × Value) := do
  let before ← args.snapshots.mapM fun cmd => run cmd 5 (res.before cmd)
  let process ← run job.command args.timeout res.process
  let after ← args.snapshots.mapM fun cmd => run cmd 5 (res.after cmd)
  let start := Row.start index job (snapshotErrors before after)
  let row ← settle start process (examine py job.direction process).2
  .ok (row, recordOf res.started before after process (examine py job.direction process).1 row)

/-- `f"{row['local_bps'] / 1e9:.3f} Gbit/s"`. -/
def rate (row : Row) : Except Exc Str :=
  match row.localBps with
  | none => .error (.typeError (lit "unsupported operand type(s) for /: 'NoneType' and 'float'"))
  | some v =>
      match v.toFloat.bind (·.divide 1000000000) with
      | none => .error .overflowError
      | some x => .ok (x.fixed3 ++ lit " Gbit/s")

/-- The line that is printed for a row. -/
def lineOf (row : Row) : Except Exc Str := do
  let text ← match row.status, row.error with
    | .ok, _ => rate row
    | .failed, some text => .ok text
    | .failed, none => .error (.typeError (lit "can only concatenate str (not \"NoneType\") to str"))
  .ok (row.artifact ++ lit ": " ++ lit row.status.name ++ lit " " ++ text)

/-- What is written for a row. -/
def report (py : Interpreter) (row : Row) (record : Value) (s : State) : Except Exc State := do
  let s ← writeJson py row.artifact record s
  let s := { s with summary := s.summary ++ [row] }
  let s ← writeJson py (lit "summary.json") (.list (s.summary.map Row.toValue)) s
  let s ← writeCsv (lit "summary.csv") (csvText s.summary) s
  let line ← lineOf row
  print line s

/-- The body of the loop. -/
def jobStep (py : Interpreter) (args : Args) (index : ℕ) (job : Job) (res : Results) (s : State) :
    Except Exc State := do
  let s ← print (shellJoin job.command) s
  let (row, record) ← jobRow py args index job res
  report py row record s

def loop (py : Interpreter) (args : Args) : ℕ → List (Job × Results) → State → Except Exc State
  | _, [], s => .ok s
  | index, (job, res) :: rest, s => do
      let s ← jobStep py args index job res s
      loop py args (index + 1) rest s

/-- The loop of `main`, over the jobs and what happened during each. -/
def mainLoop (py : Interpreter) (args : Args) (jobs : List (Job × Results)) : Except Exc State :=
  loop py args 1 jobs ⟨[], [], []⟩

end Rtl812x.Tools
