import StatementLang.Text.Quoted

/-!
# What can be wrong with a YAML document

Structural errors name a line if they are not on the first one. Errors in the content are listed,
each with its line.
-/

namespace StatementLang.Yaml

/-- A complaint about one node of the content: a key is defined twice, or a node with this tag and
spelling does not fit what it is read into. -/
inductive Complaint where
  | duplicateKey (line : Nat) (key : Bytes) (firstLine : Nat)
  | unfit (line : Nat) (tag spelling target : Bytes)
  deriving DecidableEq, Repr

/-- A value of more than ten bytes is cut to seven. -/
def shorten (value : Bytes) : Bytes :=
  if value.length > 10 then value.take 7 ++ utf8 "..." else value

/-- The spelling behind the tag of a collection stands bare. -/
def shownSpelling (tag spelling : Bytes) : Bytes :=
  if tag = utf8 "!!seq" ∨ tag = utf8 "!!map" then spelling
  else utf8 " \x60" ++ shorten spelling ++ utf8 "\x60"

def Complaint.message : Complaint → Bytes
  | .duplicateKey line key firstLine =>
    utf8 "line " ++ decimal line ++ utf8 ": mapping key " ++ quote key ++
      utf8 " already defined at line " ++ decimal firstLine
  | .unfit line tag spelling target =>
    utf8 "line " ++ decimal line ++ utf8 ": cannot unmarshal " ++ tag ++ shownSpelling tag spelling ++
      utf8 " into " ++ target

/-- `structural` has the line that is shown, or zero; `content` is not empty. -/
inductive Error where
  | structural (line : Nat) (problem : Bytes)
  | content (complaints : List Complaint)
  deriving DecidableEq, Repr

def Error.message : Error → Bytes
  | .structural 0 problem => utf8 "yaml: " ++ problem
  | .structural line problem => utf8 "yaml: line " ++ decimal line ++ utf8 ": " ++ problem
  | .content complaints =>
    utf8 "yaml: unmarshal errors:" ++ complaints.flatMap fun c => utf8 "\n  " ++ c.message

end StatementLang.Yaml
