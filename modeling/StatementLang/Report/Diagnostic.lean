import StatementLang.Interpreter.Error
import StatementLang.Report.Style

/-!
# Failures and their reports

A failure may have passed through several hands on its way to the user: tied to a source file, put
under a label. Reports look through these for the position of the error.
-/

namespace StatementLang

inductive Failure where
  | program (error : ProgramError)
  | scan (error : LexError)
  | plain (text : Bytes)
  | labelled (label : Bytes) (inner : Failure)
  | inSource (path : Bytes) (inner : Failure)
  deriving DecidableEq, Repr, Inhabited

namespace Failure

def ofRunError : RunError → Failure
  | .program e => .program e
  | .output reason => .labelled (utf8 "failed to write output") (.plain reason)

def programError? : Failure → Option ProgramError
  | .program e => some e
  | .scan _ => none
  | .plain _ => none
  | .labelled _ inner => inner.programError?
  | .inSource _ inner => inner.programError?

/-- The scanning failure inside a failure that holds no program error. -/
def lexError? : Failure → Option LexError
  | .program _ => none
  | .scan e => some e
  | .plain _ => none
  | .labelled _ inner => inner.lexError?
  | .inSource _ inner => inner.lexError?

/-- Where a failure is in its source and what it says there. -/
def location? (f : Failure) : Option (Position × Bytes) :=
  match f.programError? with
  | some e => some (e.pos, e.kind.name ++ utf8 " error: " ++ e.message)
  | none =>
    match f.lexError? with
    | some e => some (e.pos, utf8 "lexical error: " ++ e.message)
    | none => none

def place (path : Bytes) (pos : Position) : Bytes :=
  path ++ utf8 ":" ++ intText pos.line ++ utf8 ":" ++ intText pos.column ++ utf8 ":"

def text : Failure → Bytes
  | .program e => e.text
  | .scan e => e.text
  | .plain t => t
  | .labelled label inner => label ++ utf8 ": " ++ inner.text
  | .inSource path inner =>
    match inner.location? with
    | some (pos, said) => place path pos ++ utf8 " " ++ said
    | none => path ++ utf8 ": " ++ inner.text

def source? : Failure → Option (Bytes × Failure)
  | .labelled _ inner => inner.source?
  | .inSource path inner => some (path, inner)
  | _ => none

/-- The report of a failure, with its place set off if it has one. -/
def diagnostic (colored : Bool) (f : Failure) : Bytes :=
  let head := Style.error.render colored (utf8 "Error:")
  match f.source? with
  | some (path, inner) =>
    match inner.location? with
    | some (pos, said) =>
      head ++ utf8 " " ++ Style.position.render colored (place path pos) ++ utf8 " " ++ said
    | none => head ++ utf8 " " ++ f.text
  | none => head ++ utf8 " " ++ f.text

end Failure

end StatementLang
