import StatementLang.Number.Double
import StatementLang.Text.Quoted

/-!
# Durations

A duration is a whole number of nanoseconds of 64 bits. It is written with the units that suit its
size, and read as a sequence of decimal numbers with units.
-/

namespace StatementLang.Duration

def microsecond : Nat := 1000
def millisecond : Nat := 1000000
def second : Nat := 1000000000
def minute : Nat := 60 * second
def hour : Nat := 60 * minute

def paddedDigits : (width : Nat) → Nat → Bytes
  | 0, _ => []
  | width + 1, n => paddedDigits width (n / 10) ++ [digitByte (n % 10)]

/-- `n / 10 ^ places` as a decimal number without trailing zeros. -/
def decimalFraction (places n : Nat) : Bytes :=
  let digits := trimRight (· == 48) (paddedDigits places (n % Nat.pow 10 places))
  decimal (n / Nat.pow 10 places) ++ if digits.isEmpty then [] else 46 :: digits

/-- Below a second one unit is enough; from a minute on the smaller units are always shown. -/
def magnitudeText (n : Nat) : Bytes :=
  if n = 0 then utf8 "0s"
  else if n < microsecond then decimal n ++ utf8 "ns"
  else if n < millisecond then decimalFraction 3 n ++ utf8 "µs"
  else if n < second then decimalFraction 6 n ++ utf8 "ms"
  else
    let seconds := decimalFraction 9 (n % minute) ++ utf8 "s"
    if n < minute then seconds
    else
      let minutes := decimal (n / minute % 60) ++ utf8 "m" ++ seconds
      if n < hour then minutes else decimal (n / hour) ++ utf8 "h" ++ minutes

def text (d : Int) : Bytes :=
  if d < 0 then 45 :: magnitudeText d.natAbs else magnitudeText d.natAbs

inductive Problem where
  | invalid
  | missingUnit
  | unknownUnit (unit : Bytes)
  deriving DecidableEq, Repr, Inhabited

/-- A quoted text in which every byte outside printable ASCII is written as a number; the delete
character stays. -/
def quoteAscii (text : Bytes) : Bytes :=
  34 :: text.flatMap (fun b =>
    if b < 0x20 ∨ 0x80 ≤ b then utf8 "\\x" ++ hexDigits 2 b.toNat
    else if b = 34 ∨ b = 92 then [92, b]
    else [b]) ++ [34]

/-- The full wording, which quotes the text. -/
def Problem.message (text : Bytes) : Problem → Bytes
  | .invalid => utf8 "time: invalid duration " ++ quoteAscii text
  | .missingUnit => utf8 "time: missing unit in duration " ++ quoteAscii text
  | .unknownUnit unit =>
    utf8 "time: unknown unit " ++ quoteAscii unit ++ utf8 " in duration " ++ quoteAscii text

/-- The wording cut before its last word, which is the end of the quoted text; an unknown unit is not
shown at all. -/
def Problem.summary (text : Bytes) : Problem → Bytes
  | .unknownUnit _ => utf8 "time: unknown unit"
  | p => (((p.message text).reverse.dropWhile (· ≠ space)).drop 1).reverse

/-- The length of a unit; both letters that look like a Greek mu name microseconds. -/
def unitLength? (unit : Bytes) : Option Nat :=
  if unit = utf8 "ns" then some 1
  else if unit = utf8 "us" ∨ unit = utf8 "µs" ∨ unit = utf8 "μs" then some microsecond
  else if unit = utf8 "ms" then some millisecond
  else if unit = utf8 "s" then some second
  else if unit = utf8 "m" then some minute
  else if unit = utf8 "h" then some hour
  else none

def isFigure (b : UInt8) : Bool := 48 ≤ b && b ≤ 57

def isNumberPart (b : UInt8) : Bool := b == 46 || isFigure b

def limit : Nat := 9223372036854775808

/-- The digits of a fraction that count: as many as fit below the limit. -/
def fractionDigits (digits : Bytes) : Nat × Nat :=
  let (value, scale, _) := digits.foldl (fun (value, scale, full) d =>
    if full then (value, scale, true)
    else if value > (limit - 1) / 10 then (value, scale, true)
    else if value * 10 + digitValue d > limit then (value, scale, true)
    else (value * 10 + digitValue d, scale * 10, false)) (0, 1, false)
  (value, scale)

/-- The whole nanoseconds of a fraction of a unit, in double precision. -/
def fractionPart (value scale unit : Nat) : Nat :=
  match Double.nearest? value 1, Double.nearest? unit scale with
  | some (m, e), some (m', e') =>
    let (n, d) := Double.scaled (m * m') 1 (e + e')
    match Double.nearest? n d with
    | some (m, e) => (Double.truncate false m e).toNat
    | none => 0
  | _, _ => 0

/-- One number with its unit, and the text behind it. -/
def parsePart (text : Bytes) : Except Problem (Nat × Bytes) :=
  let (whole, rest) := text.span isFigure
  let (fraction, rest) := match rest with
    | 46 :: rest => rest.span isFigure
    | rest => ([], rest)
  let value := boundedValue (limit + 1) whole
  if value > limit ∨ (whole.isEmpty ∧ fraction.isEmpty) then .error .invalid
  else
    let (unit, rest) := splitBefore isNumberPart rest
    if unit.isEmpty then .error .missingUnit
    else match unitLength? unit with
      | none => .error (.unknownUnit unit)
      | some length =>
        if value > limit / length then .error .invalid
        else
          let (f, scale) := fractionDigits fraction
          let total := value * length + if f = 0 then 0 else fractionPart f scale length
          if total > limit then .error .invalid else .ok (total, rest)

/-- Adds up the parts in 64 bits, so that two greatest ones make zero; `fuel` bounds their number. -/
def parseParts : (fuel : Nat) → Nat → Bytes → Except Problem Nat
  | 0, sum, _ => .ok sum
  | _ + 1, sum, [] => .ok sum
  | fuel + 1, sum, b :: rest =>
    if !isNumberPart b then .error .invalid
    else match parsePart (b :: rest) with
      | .error p => .error p
      | .ok (n, rest) =>
        let sum := (sum + n) % wordCount
        if sum > limit then .error .invalid else parseParts fuel sum rest

/-- A sign, then `0` or one or more numbers with units. -/
def parse (text : Bytes) : Except Problem Int :=
  let (negative, body) := match text with
    | 45 :: rest => (true, rest)
    | 43 :: rest => (false, rest)
    | rest => (false, rest)
  if body = [48] then .ok 0
  else if body.isEmpty then .error .invalid
  else match parseParts body.length 0 body with
    | .error p => .error p
    | .ok n =>
      if negative then .ok (-n)
      else if n ≥ limit then .error .invalid
      else .ok n

end StatementLang.Duration
