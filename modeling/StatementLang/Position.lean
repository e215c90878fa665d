import StatementLang.Bytes

/-!
# Positions

A position names a byte of a text by its line, its column in that line and its offset. Lines and
columns count from one, offsets from zero.
-/

namespace StatementLang

/-- Positions handed over from outside may be arbitrary integers; the scanner only makes valid ones. -/
structure Position where
  line : Int
  column : Int
  offset : Int
  deriving DecidableEq, Repr, Inhabited

namespace Position

def start : Position := ⟨1, 1, 0⟩

def isValid (p : Position) : Bool := 0 < p.line

/-- The position behind a byte: a newline starts the next line. -/
def after (p : Position) (b : UInt8) : Position :=
  if b = newline then ⟨p.line + 1, 1, p.offset + 1⟩ else ⟨p.line, p.column + 1, p.offset + 1⟩

def afterText (p : Position) (text : Bytes) : Position := text.foldl after p

@[simp] theorem afterText_nil (p : Position) : p.afterText [] = p := rfl

@[simp] theorem afterText_cons (p : Position) (b : UInt8) (text : Bytes) :
    p.afterText (b :: text) = (p.after b).afterText text := rfl

@[simp] theorem afterText_append (p : Position) (a b : Bytes) :
    p.afterText (a ++ b) = (p.afterText a).afterText b := List.foldl_append ..

/-- `line:column`, or a dash for a position that is not valid. -/
def text (p : Position) : Bytes :=
  if p.isValid then intText p.line ++ utf8 ":" ++ intText p.column else utf8 "-"

end Position

end StatementLang
