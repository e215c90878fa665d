import StatementLang.Text.Utf8

/-!
# Styled text

With colour, each line of a styled text stands between an escape sequence and a reset. Without, the
text is plain; either way tabs are expanded and short lines are filled up to the longest.
-/

namespace StatementLang

structure Style where
  codes : Bytes
  deriving Repr, Inhabited

namespace Style

def error : Style := ⟨utf8 "1;31"⟩
def position : Style := ⟨utf8 "1"⟩
def ok : Style := ⟨utf8 "32"⟩
def dim : Style := ⟨utf8 "2"⟩

def expandTabs (text : Bytes) : Bytes :=
  text.flatMap fun b => if b = 9 then List.replicate 4 space else [b]

/-- A carriage return before a newline vanishes. -/
def dropReturns : Bytes → Bytes
  | [] => []
  | b :: rest => if b = 13 ∧ rest.head? = some newline then dropReturns rest else b :: dropReturns rest

def paint (colored : Bool) (s : Style) (text : Bytes) : Bytes :=
  if colored then utf8 "\x1b[" ++ s.codes ++ utf8 "m" ++ text ++ utf8 "\x1b[0m" else text

def render (colored : Bool) (s : Style) (text : Bytes) : Bytes :=
  let lines := splitOn newline (dropReturns (expandTabs text))
  let widest := (lines.map fun l => (runes l).length).foldl max 0
  joinWith [newline] (lines.map fun l =>
    s.paint colored l ++ List.replicate (widest - (runes l).length) space)

end Style

end StatementLang
