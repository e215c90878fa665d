import StatementLang.Dump.Table
import StatementLang.Interpreter.Run
import StatementLang.Log.Line
import StatementLang.Report.Diagnostic
import StatementLang.Text.Blank
import StatementLang.Text.LetterCase

/-!
# Interactive sessions

A session collects lines until one ends with a semicolon and then executes them against a table
that lasts for the whole session. Lines that start with a dot are commands to the session, but only
while nothing is pending. Positions in reports count the lines of the whole session.
-/

namespace StatementLang

/-- `pending` is the text that waits for its semicolon and `start` the number of its first line;
`lines` counts the lines read and `runs` the inputs executed. -/
structure Session where
  symbols : SymbolTable
  pending : Bytes
  runs : Nat
  lines : Nat
  start : Nat
  deriving Inhabited

structure Reply where
  out : Bytes
  err : Bytes
  records : List LogRecord
  quit : Bool
  deriving Inhabited

namespace Session

def fresh : Session := ⟨.empty, [], 0, 0, 0⟩

def promptText : Bytes := utf8 "xpres> "

def continuationText : Bytes := utf8 "  ...> "

def prompt (s : Session) : Bytes := if s.pending.isEmpty then promptText else continuationText

def silent : Reply := ⟨[], [], [], false⟩

def say (text : Bytes) : Reply := ⟨text, [], [], false⟩

def cancel (s : Session) : Session := { s with pending := [] }

def shiftLines (n : Nat) : RunError → RunError
  | .program e => .program { e with pos := { e.pos with line := e.pos.line + n } }
  | .output reason => .output reason

/-- Executes the text `src`, which starts on the session line `first`. -/
def execute (colored : Bool) (src : Bytes) (first : Nat) (s : Session) : Reply × Session :=
  let s := { s with runs := s.runs + 1 }
  let e := StatementLang.execute Sink.writer src s.symbols []
  let fields := [LogField.number "input" s.runs, LogField.number "line" first]
  let records := e.machine.log.map fun ev =>
    let r := ev.record
    { r with fields := fields ++ r.fields }
  let err := match e.error with
    | none => []
    | some err =>
      line (Failure.diagnostic colored
        (.inSource (utf8 "<stdin>") (.ofRunError (shiftLines (first - 1) err))))
  (⟨Sink.written e.machine.sink, err, records, false⟩, { s with symbols := e.machine.symbols })

def helpText : Bytes := utf8 "
Commands:
  .help           Show this help message
  .vars           List declared variables and their values
  .reset          Forget all variables
  .quit / .exit   Exit the session

Tips:
  - Statements run once a line ends with a semicolon (;)
  - Variables start at 0 and persist between inputs
  - Use arrow keys to navigate history

"

def variablesText (symbols : SymbolTable) : Bytes :=
  if symbols.cells.isEmpty then line (utf8 "No variables declared.")
  else BoxTable.render [⟨utf8 "NAME", .left⟩, ⟨utf8 "VALUE", .right⟩]
    (symbols.cells.map fun c => [c.name, intText c.value])

/-- Obeys a command; only its first word counts, in any case. -/
def command (text : Bytes) (s : Session) : Reply × Session :=
  let word := toLower (firstField text)
  if word = utf8 ".quit" ∨ word = utf8 ".exit" then ({ silent with quit := true }, s)
  else if word = utf8 ".help" then (say helpText, s)
  else if word = utf8 ".vars" then (say (variablesText s.symbols), s)
  else if word = utf8 ".reset" then
    (say (line (utf8 "All variables cleared.")), { s with symbols := .empty })
  else
    ({ silent with err := line (utf8 "Unknown command: " ++ word ++
        utf8 " (type .help for commands)") }, s)

/-- The bytes that are cut off at the end of a kept line. -/
def isTrailing (b : UInt8) : Bool := b == 32 || b == 9 || b == 13

/-- Adds a line to the pending text and executes it if the line ends with a semicolon. -/
def collect (colored : Bool) (text trimmed : Bytes) (s : Session) : Reply × Session :=
  let s := { s with pending := s.pending ++ line (trimRight isTrailing text) }
  if trimmed.getLast? = some 59 then execute colored s.pending s.start s.cancel else (silent, s)

def handle (colored : Bool) (text : Bytes) (s : Session) : Reply × Session :=
  let s := { s with lines := s.lines + 1 }
  let trimmed := trimSpace text
  if s.pending.isEmpty then
    if trimmed.isEmpty then (silent, s)
    else if trimmed.head? = some 46 then s.command trimmed
    else { s with start := s.lines }.collect colored text trimmed
  else s.collect colored text trimmed

end Session

end StatementLang
