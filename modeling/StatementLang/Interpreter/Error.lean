import StatementLang.Lexer
import StatementLang.SymbolTable

/-!
# Errors of a run

A run stops at the first error. A program error has a cause and the position of the token or byte
it blames; the wording follows from the cause alone.
-/

namespace StatementLang

/-- The classes of program errors. `other` holds a class number from outside. -/
inductive ErrorKind where
  | lexical
  | syntactic
  | semantic
  | other (code : Int)
  deriving DecidableEq, Repr, Inhabited

namespace ErrorKind

def ofCode (code : Int) : ErrorKind :=
  if code = 1 then .lexical
  else if code = 2 then .syntactic
  else if code = 3 then .semantic
  else .other code

def code : ErrorKind → Int
  | .lexical => 1
  | .syntactic => 2
  | .semantic => 3
  | .other code => code

def name : ErrorKind → Bytes
  | .lexical => utf8 "lexical"
  | .syntactic => utf8 "syntax"
  | .semantic => utf8 "semantic"
  | .other code => utf8 "Kind(" ++ intText code ++ utf8 ")"

/-- The full text of an error: its class, where it is and what is wrong. -/
def report (kind : ErrorKind) (pos : Position) (message : Bytes) : Bytes :=
  kind.name ++ utf8 " error at line " ++ intText pos.line ++ utf8 ", column " ++
    intText pos.column ++ utf8 ": " ++ message

end ErrorKind

inductive Expected where
  | semicolon
  | identifier
  | assignment
  | expression
  | statement
  deriving DecidableEq, Repr, Inhabited

def Expected.message : Expected → Lexeme → Bytes
  | .semicolon, l => utf8 "semicolon expected, got " ++ l.describe
  | .identifier, l => utf8 "identifier expected after 'var', got " ++ l.describe
  | .assignment, l => utf8 "assignment operator expected, got " ++ l.describe
  | .expression, l => utf8 "invalid expression: " ++ l.describe
  | .statement, l => utf8 "unexpected token " ++ l.describe

inductive Cause where
  | unmatched (remainder : Bytes)
  | unexpected (expected : Expected) (found : Lexeme)
  | symbol (error : SymbolError)
  | outOfRange (literal : Bytes)
  deriving DecidableEq, Repr, Inhabited

namespace Cause

def kind : Cause → ErrorKind
  | .unmatched _ => .lexical
  | .unexpected _ _ => .syntactic
  | .symbol _ => .semantic
  | .outOfRange _ => .semantic

def message : Cause → Bytes
  | .unmatched remainder => utf8 "no matched token at: " ++ remainder
  | .unexpected expected found => expected.message found
  | .symbol error => error.message
  | .outOfRange literal => utf8 "integer literal out of range: " ++ literal

end Cause

structure ProgramError where
  cause : Cause
  pos : Position
  deriving DecidableEq, Repr, Inhabited

namespace ProgramError

def kind (e : ProgramError) : ErrorKind := e.cause.kind

def message (e : ProgramError) : Bytes := e.cause.message

def text (e : ProgramError) : Bytes := e.kind.report e.pos e.message

def ofLexError (e : LexError) : ProgramError := ⟨.unmatched e.remainder, e.pos⟩

def unexpected (expected : Expected) (found : Token) : ProgramError :=
  ⟨.unexpected expected found.toLexeme, found.pos⟩

end ProgramError

/-- A run fails because of its program or because a printed value could not be delivered. -/
inductive RunError where
  | program (error : ProgramError)
  | output (reason : Bytes)
  deriving DecidableEq, Repr, Inhabited

def RunError.text : RunError → Bytes
  | .program e => e.text
  | .output reason => utf8 "failed to write output: " ++ reason

end StatementLang
