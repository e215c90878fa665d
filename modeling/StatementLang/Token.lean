import StatementLang.Position
import StatementLang.Text.Quoted

/-!
# Tokens

The words of the language: two punctuation marks, two keywords, identifiers, integer literals and
the end of input. A lexeme is what a token says, a token also where it stands.
-/

namespace StatementLang

/-- The classes of tokens. The scanner makes the seven named ones; `other` holds a class number
from outside that names none of them. -/
inductive TokenKind where
  | eof
  | semicolon
  | assign
  | var
  | print
  | ident
  | int
  | other (code : Int)
  deriving DecidableEq, Repr, Inhabited

namespace TokenKind

def ofCode (code : Int) : TokenKind :=
  if code = 0 then .eof
  else if code = 1 then .semicolon
  else if code = 2 then .assign
  else if code = 3 then .var
  else if code = 4 then .print
  else if code = 5 then .ident
  else if code = 6 then .int
  else .other code

def name : TokenKind → Bytes
  | .eof => utf8 "EOF"
  | .semicolon => utf8 ";"
  | .assign => utf8 "="
  | .var => utf8 "var"
  | .print => utf8 "print"
  | .ident => utf8 "IDENT"
  | .int => utf8 "INT"
  | .other code => utf8 "TOKEN(" ++ intText code ++ utf8 ")"

def isKeyword : TokenKind → Bool
  | .var | .print => true
  | _ => false

/-- Identifiers and integers carry text of the author's choice. -/
def isLiteral : TokenKind → Bool
  | .ident | .int => true
  | _ => false

end TokenKind

/-- What a token says: its class and its spelling. -/
structure Lexeme where
  kind : TokenKind
  literal : Bytes
  deriving DecidableEq, Repr, Inhabited

def Lexeme.describe (l : Lexeme) : Bytes :=
  if l.kind = .eof then utf8 "end of input"
  else if l.kind.isLiteral then l.kind.name ++ utf8 "(" ++ quote l.literal ++ utf8 ")"
  else quote l.literal

/-- A lexeme and the position of its first byte. -/
structure Token extends Lexeme where
  pos : Position
  deriving DecidableEq, Repr, Inhabited

end StatementLang
