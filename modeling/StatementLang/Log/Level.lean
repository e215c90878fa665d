import StatementLang.Number.Integer
import StatementLang.Text.LetterCase
import StatementLang.Text.Quoted

/-!
# Log levels

A level is a 64-bit integer; four of them have names, and the others are named by their distance
from the nearest one below.
-/

namespace StatementLang

namespace Level

def debug : Int := -4
def info : Int := 0
def warn : Int := 4
def error : Int := 8

/-- A name with a signed distance, which is left out if it is zero. -/
def offsetName (base : String) (d : Int) : Bytes :=
  if d = 0 then utf8 base
  else if 0 < d then utf8 base ++ utf8 "+" ++ intText d
  else utf8 base ++ intText d

def name (level : Int) : Bytes :=
  if level < info then offsetName "DEBUG" (level - debug)
  else if level < warn then offsetName "INFO" (level - info)
  else if level < error then offsetName "WARN" (level - warn)
  else offsetName "ERROR" (level - error)

inductive Problem where
  | unknownName
  | badOffset (offset : Bytes) (problem : IntegerText.Problem)
  deriving DecidableEq, Repr

def Problem.message : Problem → Bytes
  | .unknownName => utf8 "unknown name"
  | .badOffset offset p => utf8 "strconv.Atoi: parsing " ++ quote offset ++ utf8 ": " ++ p.message

/-- A sign, then decimal digits; no text at all is no offset. -/
def parseOffset (text : Bytes) : Except Problem Int :=
  if text.isEmpty then .ok 0
  else match IntegerText.parseIn 10 text with
    | .ok d => .ok d
    | .error p => .error (.badOffset text p)

def ofName? (name : Bytes) : Option Int :=
  let upper := toUpper name
  if upper = utf8 "DEBUG" then some debug
  else if upper = utf8 "INFO" then some info
  else if upper = utf8 "WARN" then some warn
  else if upper = utf8 "ERROR" then some error
  else none

/-- A name in any case, then possibly a signed offset, which is read first. -/
def parse (text : Bytes) : Except Problem Int :=
  let (name, offset) := splitBefore (fun b => b == 43 || b == 45) text
  match parseOffset offset with
  | .error p => .error p
  | .ok d =>
    match ofName? name with
    | some base => .ok (wrapWord (base + d))
    | none => .error .unknownName

def complaint (text : Bytes) (p : Problem) : Bytes :=
  utf8 "slog: level string " ++ quote text ++ utf8 ": " ++ p.message

end Level

end StatementLang
