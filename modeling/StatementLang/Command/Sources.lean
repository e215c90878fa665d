import StatementLang.Command.Effect
import StatementLang.Dump.Render
import StatementLang.Interpreter.Run
import StatementLang.Layout

/-!
# Commands on source files

Running, dumping, checking and formatting the files named on the command line. Every file is read
when its turn comes and has a symbol table of its own.
-/

namespace StatementLang

def readSource (files : FileTree) (path : Bytes) : Except Failure Bytes :=
  match files.read path with
  | .ok src => .ok src
  | .error p =>
    .error (.inSource path (.labelled (utf8 "failed to read source") (.plain p.message)))

namespace Context

def runFile (c : Context) (files : FileTree) (path : Bytes) : Effect :=
  match readSource files path with
  | .error f => .failing files f
  | .ok src =>
    let own : Context := { c with logger := c.logger.withFields [.text "file" path] }
    let e := execute Sink.writer src .empty []
    let statements := LogField.number "statements" e.machine.statements
    let began := own.debug "starting run" [.number "bytes" src.length]
    let log := began ++ own.logger.writeAll (e.machine.log.map Event.record)
    let out := Sink.written e.machine.sink
    match e.error with
    | none =>
      let declared := LogField.number "variables" e.machine.symbols.size
      ⟨out, log ++ own.debug "run completed" [statements, declared], files, none⟩
    | some err =>
      let f := Failure.ofRunError err
      ⟨out, log ++ own.debug "run failed" [.text "error" f.text, statements], files,
        some (.inSource path f)⟩

/-- Prints the tokens of a file. The tokens before a scanning failure are printed too. -/
def dumpFile (c : Context) (files : FileTree) (path : Bytes) : Effect :=
  match readSource files path with
  | .error f => .failing files f
  | .ok src =>
    let s := tokenize src
    let format := resolveFormat c.settings.output false
    let log := c.debug "tokenized"
      [.text "file" path, .number "tokens" s.tokens.length, .text "format" format]
    let w := dumpTokens s.tokens format 0 []
    let failure := match w.failure with
      | some reason => some (.plain reason)
      | none => s.error.map fun e => .inSource path (.scan e)
    ⟨w.text, log, files, failure⟩

end Context

/-- The outcome of executing one file with its output discarded. -/
structure CheckResult where
  path : Bytes
  statements : Nat
  failure : Option Failure
  deriving DecidableEq, Repr, Inhabited

def checkFile (files : FileTree) (path : Bytes) : CheckResult :=
  match readSource files path with
  | .error f => ⟨path, 0, some f⟩
  | .ok src =>
    let e := execute Sink.discard src .empty ()
    ⟨path, e.machine.statements, e.error.map fun err => .inSource path (.ofRunError err)⟩

def checkCancelled : Failure := .plain (utf8 "context canceled")

/-- Checks files one after the other; a cancelled check has no results, unless there is no file to
check. -/
def checkFiles (cancelled : Bool) (files : FileTree) (paths : List Bytes) :
    Except Failure (List CheckResult) :=
  if cancelled ∧ paths ≠ [] then .error checkCancelled else .ok (paths.map (checkFile files))

namespace Context

def checkOut (c : Context) (r : CheckResult) : Bytes :=
  match r.failure with
  | some _ => []
  | none =>
    line (Style.ok.render c.colored (utf8 "ok") ++ utf8 " " ++ r.path ++ utf8 " (" ++
      decimal r.statements ++ utf8 " statements)")

def checkErr (c : Context) (r : CheckResult) : Bytes :=
  match r.failure with
  | some f => line (f.diagnostic c.colored)
  | none => []

def reportCheck (c : Context) (files : FileTree) : Except Failure (List CheckResult) → Effect
  | .error f => .failing files f
  | .ok results =>
    let failed := (results.filter fun r => r.failure.isSome).length
    let log := c.debug "check finished" [.number "files" results.length, .number "failed" failed]
    let failure := if failed = 0 then none
      else some (.plain (decimal failed ++ utf8 " of " ++ decimal results.length ++
        utf8 " files failed"))
    ⟨results.flatMap c.checkOut, results.flatMap c.checkErr ++ log, files, failure⟩

def checkAll (c : Context) (cancelled : Bool) (files : FileTree) (paths : List Bytes) : Effect :=
  c.reportCheck files (checkFiles cancelled files paths)

end Context

/-- What becomes of a formatted text: `list` names files that would change, `write` changes them,
and otherwise the text is printed. Listing wins over writing. -/
structure FormatMode where
  write : Bool
  list : Bool
  deriving DecidableEq, Repr, Inhabited

namespace FormatMode

def printed (m : FormatMode) (path src formatted : Bytes) : Bytes :=
  if m.list then (if formatted = src then [] else line path)
  else if m.write then []
  else formatted

def stored (m : FormatMode) (files : FileTree) (path src formatted : Bytes) : FileTree :=
  if m.list ∨ !m.write ∨ formatted = src then files else files.write path formatted

end FormatMode

namespace Context

/-- Formats files in order and stops at the first that cannot be read or scanned. -/
def formatFiles (c : Context) (mode : FormatMode) : FileTree → List Bytes → Effect
  | files, [] => .quiet files
  | files, path :: rest =>
    match readSource files path with
    | .error f => .failing files f
    | .ok src =>
      match canonical src with
      | .error e => .failing files (.inSource path (.scan e))
      | .ok formatted =>
        let log := c.debug "formatted" [.text "file" path, .flag "changed" (formatted ≠ src)]
        (c.formatFiles mode (mode.stored files path src formatted) rest).after
          (mode.printed path src formatted) log

end Context

structure Build where
  version : Bytes
  commit : Bytes
  platform : Bytes
  deriving Inhabited

def Build.text (b : Build) : Bytes :=
  line (programTitle ++ b.version) ++
    (if b.commit.isEmpty then [] else line (utf8 "commit: " ++ b.commit)) ++
    line (utf8 "go: " ++ b.platform)
where
  programTitle : Bytes := utf8 "xpres v"

end StatementLang
