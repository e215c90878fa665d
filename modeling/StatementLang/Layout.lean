import StatementLang.Lexer
import StatementLang.Number.Word

/-!
# Canonical layout

The canonical form of a source has one statement on a line and single spaces between the tokens of
a statement; a semicolon follows its statement directly. Blank lines between two statements
collapse to one, and there are none at the beginning and at the end.
-/

namespace StatementLang

/-- A page being written: its pieces, newest first, whether it stands at the start of a line, and
the source line of the last semicolon (zero before the first). -/
structure Page where
  pieces : List Bytes
  fresh : Bool
  lastLine : Int
  deriving DecidableEq, Repr, Inhabited

namespace Page

def blank : Page := ⟨[], true, 0⟩

/-- What stands before a token: an empty line if the token starts beyond the line after the last
semicolon, a space inside a statement. `lineAfter` tells which line follows a line. -/
def gap (lineAfter : Int → Int) (p : Page) (t : Token) : Bytes :=
  if p.fresh then
    if 0 < p.lastLine ∧ lineAfter p.lastLine < t.pos.line then [newline] else []
  else if t.kind = .semicolon then [] else [space]

def put (lineAfter : Int → Int) (p : Page) (t : Token) : Page :=
  if t.kind = .semicolon then
    ⟨(p.gap lineAfter t ++ t.literal ++ [newline]) :: p.pieces, true, t.pos.line⟩
  else ⟨(p.gap lineAfter t ++ t.literal) :: p.pieces, false, p.lastLine⟩

/-- The text of a page ends in exactly one newline; a page of newlines only is empty. -/
def text (p : Page) : Bytes :=
  let body := trimRight (· == newline) p.pieces.reverse.flatten
  if body.isEmpty then [] else line body

end Page

/-- Lays out the tokens before the end of input, for a given notion of the next line. -/
def layoutWith (lineAfter : Int → Int) (tokens : List Token) : Bytes :=
  ((tokens.takeWhile (fun t => t.kind ≠ .eof)).foldl (Page.put lineAfter) .blank).text

def layout (tokens : List Token) : Bytes := layoutWith (· + 1) tokens

/-- The successor of a 64-bit line number, which wraps around. -/
def wordLineAfter (l : Int) : Int := if l = maxWord then minWord else l + 1

/-- Lays out tokens whose line numbers are 64-bit words from outside. -/
def layoutWords (tokens : List Token) : Bytes := layoutWith wordLineAfter tokens

/-- The canonical form of a source text; a text with a lexical error has none. -/
def canonical (src : Bytes) : Except LexError Bytes :=
  match tokenize src with
  | ⟨tokens, none⟩ => .ok (layout tokens)
  | ⟨_, some e⟩ => .error e

end StatementLang
