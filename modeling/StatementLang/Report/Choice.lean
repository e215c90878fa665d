import StatementLang.Text.Blank
import StatementLang.Text.LetterCase
import StatementLang.Text.Quoted

/-!
# Output choices

The output format and the colour mode are chosen by name, in any case and with white space around
it; an empty name leaves the choice to the program.
-/

namespace StatementLang

/-- The formats in the order in which help lists them. -/
def formatNames : List Bytes := ["auto", "table", "plain", "json", "yaml"].map utf8

def colorNames : List Bytes := ["auto", "always", "never"].map utf8

/-- The chosen name of a list, in lower case; nothing chooses `auto`. -/
def chooseName? (names : List Bytes) (text : Bytes) : Option Bytes :=
  let name := toLower (trimSpace text)
  if name.isEmpty then some (utf8 "auto") else if names.contains name then some name else none

def parseFormat (text : Bytes) : Except Bytes Bytes :=
  match chooseName? formatNames text with
  | some name => .ok name
  | none =>
    .error (utf8 "unknown output format " ++ quote text ++ utf8 " (want one of " ++
      joinWith (utf8 "|") formatNames ++ utf8 ")")

def parseColor (text : Bytes) : Except Bytes Bytes :=
  match chooseName? colorNames text with
  | some name => .ok name
  | none =>
    .error (utf8 "unknown color mode " ++ quote text ++ utf8 " (want " ++
      joinWith (utf8 "|") colorNames ++ utf8 ")")

/-- Replaces an undecided format: a table on a terminal, plain lines elsewhere. -/
def resolveFormat (name : Bytes) (terminal : Bool) : Bytes :=
  if name = utf8 "auto" ∨ name = [] then utf8 (if terminal then "table" else "plain") else name

end StatementLang
