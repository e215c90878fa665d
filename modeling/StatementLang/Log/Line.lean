import StatementLang.Interpreter.Event
import StatementLang.Log.Level

/-!
# Log lines

A record is one line of `key=value` pairs: its level, its message, then its attributes. A value is
quoted if it is empty or holds anything that would blur the pairs.
-/

namespace StatementLang

inductive LogValue where
  | text (t : Bytes)
  | number (n : Int)
  | flag (b : Bool)
  deriving DecidableEq, Repr, Inhabited

structure LogField where
  key : Bytes
  value : LogValue
  deriving DecidableEq, Repr, Inhabited

structure LogRecord where
  level : Int
  message : Bytes
  fields : List LogField
  deriving DecidableEq, Repr, Inhabited

def Rune.needsQuotes : Rune → Bool
  | .invalid _ => true
  | .char c =>
    if c < 0x80 then c ≤ 0x20 || c == 0x3D || c == 0x22
    else c == replacement || !isPrintable c

def logText (t : Bytes) : Bytes :=
  if t.isEmpty || (runes t).any Rune.needsQuotes then quote t else t

def LogValue.render : LogValue → Bytes
  | .text t => logText t
  | .number n => intText n
  | .flag b => utf8 (if b then "true" else "false")

def LogField.render (f : LogField) : Bytes := utf8 " " ++ f.key ++ utf8 "=" ++ f.value.render

def LogRecord.render (r : LogRecord) : Bytes :=
  line (utf8 "level=" ++ Level.name r.level ++ utf8 " msg=" ++ logText r.message ++
    r.fields.flatMap LogField.render)

namespace LogField

def text (key : String) (t : Bytes) : LogField := ⟨utf8 key, .text t⟩

def number (key : String) (n : Int) : LogField := ⟨utf8 key, .number n⟩

def flag (key : String) (b : Bool) : LogField := ⟨utf8 key, .flag b⟩

end LogField

def Event.record : Event → LogRecord
  | .declared name pos => ⟨Level.debug, utf8 "declared variable",
      [.text "name" name, .text "pos" pos.text]⟩
  | .assigned name value pos =>
    ⟨Level.debug, utf8 "assigned variable",
      [.text "name" name, .number "value" value, .text "pos" pos.text]⟩
  | .printed value pos =>
    ⟨Level.debug, utf8 "printed value", [.number "value" value, .text "pos" pos.text]⟩
  | .finished statements symbols =>
    ⟨Level.debug, utf8 "program finished",
      [.number "statements" statements, .number "variables" symbols]⟩

/-- Writes records at or above its threshold, each with the logger's own fields in front. -/
structure Logger where
  threshold : Int
  fields : List LogField
  deriving Repr, Inhabited

namespace Logger

/-- Every level of 64 bits is below this threshold. -/
def silent : Logger := ⟨maxWord + 1, []⟩

def withFields (l : Logger) (fields : List LogField) : Logger :=
  { l with fields := l.fields ++ fields }

def write (l : Logger) (r : LogRecord) : Bytes :=
  if l.threshold ≤ r.level then { r with fields := l.fields ++ r.fields }.render else []

def writeAll (l : Logger) (rs : List LogRecord) : Bytes := rs.flatMap l.write

end Logger

end StatementLang
