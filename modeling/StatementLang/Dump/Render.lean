import StatementLang.Dump.Json
import StatementLang.Dump.Table
import StatementLang.Dump.Yaml

/-!
# Rendering tokens

A dump is written in pieces. If writing a piece fails, nothing after it is written and the dump
reports the failure.
-/

namespace StatementLang

inductive DumpFormat where
  | table
  | plain
  | json
  | yaml
  deriving DecidableEq, Repr, Inhabited

namespace DumpFormat

/-- An undecided format is a table. -/
def ofName? (name : Bytes) : Option DumpFormat :=
  if name = utf8 "json" then some .json
  else if name = utf8 "yaml" then some .yaml
  else if name = utf8 "plain" then some .plain
  else if name = utf8 "table" ∨ name = utf8 "auto" ∨ name = [] then some .table
  else none

end DumpFormat

namespace PlainDump

def tab : UInt8 := 9

def tokenLine (t : Token) : Bytes :=
  line (t.pos.text ++ [tab] ++ t.kind.name ++ [tab] ++ t.literal)

def render (tokens : List Token) : Bytes := tokens.flatMap tokenLine

end PlainDump

namespace TableDump

def columns : List Column :=
  [⟨utf8 "#", .right⟩, ⟨utf8 "POS", .left⟩, ⟨utf8 "TYPE", .left⟩, ⟨utf8 "LITERAL", .left⟩]

def box (tokens : List Token) : Bytes :=
  BoxTable.render columns (tokens.zipIdx.map fun (t, i) =>
    [decimal (i + 1), t.pos.text, t.kind.name, t.literal])

def footer (tokens : List Token) : Bytes := utf8 "(" ++ decimal tokens.length ++ utf8 " tokens)\n"

/-- The box, the end of its last line, and the number of tokens. -/
def pieces (tokens : List Token) : List Bytes :=
  let b := box tokens
  [b.dropLast, [newline], footer tokens]

end TableDump

/-- The pieces of a dump, and how it words the failure of a write. -/
structure Rendering where
  pieces : List Bytes
  wording : Bytes → Bytes

def rendering (tokens : List Token) : DumpFormat → Rendering
  | .json => ⟨[JsonDump.render tokens], id⟩
  | .yaml => ⟨YamlDump.pieces tokens, fun reason => utf8 "yaml: write error: " ++ reason⟩
  | .plain => ⟨tokens.map PlainDump.tokenLine, id⟩
  | .table => ⟨TableDump.pieces tokens, id⟩

/-- What has been written, and the message if the dump failed. -/
structure Written where
  text : Bytes
  failure : Option Bytes
  deriving DecidableEq, Repr, Inhabited

/-- Delivers a dump to a destination that fails from its `failAt`-th write on; zero never fails. -/
def Rendering.deliver (r : Rendering) (failAt : Nat) (reason : Bytes) : Written :=
  if 0 < failAt ∧ failAt ≤ r.pieces.length then
    ⟨(r.pieces.take (failAt - 1)).flatten, some (r.wording reason)⟩
  else ⟨r.pieces.flatten, none⟩

def unsupportedFormat (name : Bytes) : Bytes := utf8 "unsupported output format " ++ quote name

/-- Dumps tokens in the format of that name to such a destination. -/
def dumpTokens (tokens : List Token) (name : Bytes) (failAt : Nat) (reason : Bytes) : Written :=
  match DumpFormat.ofName? name with
  | some f => (rendering tokens f).deliver failAt reason
  | none => ⟨[], some (unsupportedFormat name)⟩

end StatementLang
