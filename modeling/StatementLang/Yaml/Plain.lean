import StatementLang.Number.Double
import StatementLang.Number.Integer
import StatementLang.Text.Base64
import StatementLang.Yaml.Timestamp

/-!
# Scalar values

A plain scalar is a truth value, a number, a date, nothing or a text by its spelling.
-/

namespace StatementLang.Yaml

/-- A value without parts. An integer has 64 bits with or without a sign. -/
inductive Scalar where
  | null
  | bool (b : Bool)
  | int (n : Int)
  | float (x : Double)
  | text (t : Bytes)
  | timestamp (t : Timestamp)
  deriving DecidableEq, Repr, Inhabited

namespace Scalar

def ofWord? (t : Bytes) : Option Scalar :=
  let oneOf (words : List String) : Bool := words.any (utf8 · == t)
  if oneOf ["true", "True", "TRUE"] then some (.bool true)
  else if oneOf ["false", "False", "FALSE"] then some (.bool false)
  else if oneOf ["", "~", "null", "Null", "NULL"] then some .null
  else if oneOf [".nan", ".NaN", ".NAN"] then some (.float .nan)
  else if oneOf [".inf", ".Inf", ".INF", "+.inf", "+.Inf", "+.INF"] then
    some (.float (.infinite false))
  else if oneOf ["-.inf", "-.Inf", "-.INF"] then some (.float (.infinite true))
  else none

/-- The parts of a decimal number with fraction and exponent: its digits, how many of them stand
behind the point, and the exponent. -/
structure FloatParts where
  negative : Bool
  digits : Bytes
  places : Nat
  exponent : Int
  deriving Repr

/-- The value of the digits of an exponent. It takes no further digit from ten thousand on. -/
def exponentValue (digits : Bytes) : Nat :=
  digits.foldl (fun e d => if e < 10000 then e * 10 + digitValue d else e) 0

def floatParts? (t : Bytes) : Option FloatParts :=
  let (negative, body) := IntegerText.splitSign t
  let (whole, rest) := body.span isFigure
  let (fraction, rest) := match rest with
    | 46 :: rest => rest.span isFigure
    | rest => ([], rest)
  if whole.isEmpty && fraction.isEmpty then none
  else
    let parts (e : Int) : FloatParts := ⟨negative, whole ++ fraction, fraction.length, e⟩
    match rest with
    | [] => some (parts 0)
    | c :: rest =>
      if c = 101 ∨ c = 69 then
        let (neg, digits) := IntegerText.splitSign rest
        if digits.isEmpty || !digits.all isFigure then none
        else
          let e : Int := exponentValue digits
          some (parts (if neg then -e else e))
      else none

/-- A decimal number as a double; one that is too large is none. -/
def float? (t : Bytes) : Option Double :=
  (floatParts? t).bind fun p =>
    let digits := decimalValue p.digits
    if digits = 0 then some (.finite p.negative 0 Double.minExponent)
    else Double.ofDecimal? p.negative digits (p.exponent - p.places)

/-- A number that starts with its point. Underscores may stand between digits. -/
def fraction? (t : Bytes) : Option Double :=
  if IntegerText.underscoresOk t then float? (t.filter (· ≠ 95)) else none

/-- A number in a base of its own, with a sign in front of the prefix. -/
def basedInt? (t : Bytes) : Option Int :=
  let (negative, body) := IntegerText.splitSign t
  if t.head? = some 43 then none
  else
    let read (base : Nat) (digits : Bytes) : Option Int :=
      match IntegerText.parseIn base (if negative then 45 :: digits else digits) with
      | .ok n => some n
      | .error _ => none
    match body with
    | 48 :: 98 :: digits => read 2 digits
    | 48 :: 111 :: digits => read 8 digits
    | _ => none

def int? (t : Bytes) : Option Int :=
  match IntegerText.parse t with
  | .ok n => some n
  | .error _ =>
    match IntegerText.parseUnsigned t with
    | .ok n => some (n : Int)
    | .error _ => none

/-- The number that a spelling stands for, in which underscores do not count. -/
def number? (t : Bytes) : Option Scalar :=
  let digits := t.filter (· ≠ 95)
  ((int? digits).map .int).or (((float? digits).map .float).or ((basedInt? digits).map .int))

/-- The value that a plain spelling stands for; dates are only looked for if `dates` is set. -/
def ofPlain (dates : Bool) (t : Bytes) : Scalar :=
  match ofWord? t, t.head? with
  | some v, _ => v
  | none, none => .null
  | none, some c =>
    if isFigure c || c == 43 || c == 45 then
      let date := if dates then (Timestamp.parse? t).map timestamp else none
      (date.or (number? t)).getD (.text t)
    else if c == 46 then ((fraction? t).map float).getD (.text t)
    else .text t

def tag : Scalar → Bytes
  | .null => utf8 "!!null"
  | .bool _ => utf8 "!!bool"
  | .int _ => utf8 "!!int"
  | .float _ => utf8 "!!float"
  | .text _ => utf8 "!!str"
  | .timestamp _ => utf8 "!!timestamp"

end Scalar

end StatementLang.Yaml
