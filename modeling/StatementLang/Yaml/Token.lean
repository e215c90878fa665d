import StatementLang.Yaml.Error
import StatementLang.Yaml.Source

/-!
# Tokens of YAML

The marks that structure a document and its scalars. A line ends with a newline, with the next-line
character or with one of the two Unicode separators.
-/

namespace StatementLang.Yaml

/-- A place in the text; everything counts from zero. -/
structure Mark where
  index : Nat
  line : Nat
  column : Nat
  deriving DecidableEq, Repr, Inhabited

/-- Block scalars count as quoted. -/
inductive ScalarStyle where
  | plain
  | quoted
  deriving DecidableEq, Repr, Inhabited

inductive TokenKind where
  | streamStart
  | streamEnd
  | version (major minor : Nat)
  | tagHandle (handle expansion : Bytes)
  | documentStart
  | documentEnd
  | blockSequenceStart
  | blockMappingStart
  | blockEnd
  | flowSequenceStart
  | flowSequenceEnd
  | flowMappingStart
  | flowMappingEnd
  | blockEntry
  | flowEntry
  | key
  | value
  | alias (name : Bytes)
  | anchor (name : Bytes)
  | tag (handle suffix : Bytes)
  | scalar (style : ScalarStyle) (text : Bytes)
  deriving DecidableEq, Repr, Inhabited

structure Token where
  kind : TokenKind
  mark : Mark
  deriving DecidableEq, Repr, Inhabited

def isBlank (c : Char) : Bool := c == ' ' || c == '\t'

def isBreak (c : Char) : Bool := c == '\n' || c == '\u0085' || c == '\u2028' || c == '\u2029'

/-- A line break as it is kept in a scalar: only the separators differ from a newline. -/
def keptBreak (c : Char) : Char := if c == '\u0085' then '\n' else c

/-- The text goes on with a blank or a line break, or ends. -/
def blankNext : List Char → Bool
  | [] => true
  | c :: _ => isBlank c || isBreak c

def breakNext : List Char → Bool
  | [] => true
  | c :: _ => isBreak c

def Mark.after (m : Mark) (c : Char) : Mark :=
  if isBreak c then ⟨m.index + 1, m.line + 1, 0⟩ else ⟨m.index + 1, m.line, m.column + 1⟩

def textOf (reversed : List Char) : Bytes := reversed.reverse.flatMap fun c => encodeRune c.toNat

end StatementLang.Yaml
