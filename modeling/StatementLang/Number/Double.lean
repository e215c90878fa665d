import StatementLang.Number.Word
import StatementLang.Numeral

/-!
# Double-precision numbers

A finite double is a mantissa below `2 ^ 53` times a power of two. Decimal numbers are rounded to
the nearest double, ties to the even mantissa, and doubles are written with the fewest digits that
read back.
-/

namespace StatementLang

inductive Double where
  | finite (negative : Bool) (mantissa : Nat) (exponent : Int)
  | infinite (negative : Bool)
  | nan
  deriving DecidableEq, Repr, Inhabited

namespace Double

def minExponent : Int := -1074

def maxExponent : Int := 971

/-- The least mantissa of 53 bits. -/
def leastNormal : Nat := 4503599627370496

/-- `n / d` times a power of two, as a quotient of natural numbers. -/
def scaled (n d : Nat) (e : Int) : Nat × Nat :=
  if e < 0 then (n, d * Nat.pow 2 e.natAbs) else (n * Nat.pow 2 e.natAbs, d)

/-- The quotient rounded to the nearest natural number, ties to even. -/
def roundDiv (n d : Nat) : Nat :=
  let q := n / d
  let r := n % d
  if d < 2 * r ∨ (d = 2 * r ∧ q % 2 = 1) then q + 1 else q

/-- The exponent at which `n / d` has a mantissa of 53 bits, if it is not too small for that. -/
def exponentOf (n d : Nat) : Int :=
  let guess : Int := (n.log2 : Int) - d.log2 - 52
  let (a, b) := scaled n d (-guess)
  let e := if a / b < leastNormal then guess - 1 else guess
  max e minExponent

/-- The double nearest to `n / d`, or nothing if it is too large. -/
def nearest? (n d : Nat) : Option (Nat × Int) :=
  if n = 0 then some (0, minExponent)
  else
    let e := exponentOf n d
    let (a, b) := scaled n d (-e)
    let m := roundDiv a b
    let (m, e) := if m = 2 * leastNormal then (leastNormal, e + 1) else (m, e)
    if e > maxExponent then none else some (m, e)

/-- The double nearest to a decimal number `digits * 10 ^ exponent`; none if it overflows. -/
def ofDecimal? (negative : Bool) (digits : Nat) (exponent : Int) : Option Double :=
  let (n, d) := if exponent < 0 then (digits, Nat.pow 10 exponent.natAbs)
    else (digits * Nat.pow 10 exponent.natAbs, 1)
  (nearest? n d).map fun (m, e) => .finite negative m e

/-- The integer part, toward zero. -/
def truncate (negative : Bool) (mantissa : Nat) (exponent : Int) : Int :=
  let (n, d) := scaled mantissa 1 exponent
  let q : Int := (n / d : Nat)
  if negative then -q else q

/-- A double as a 64-bit integer; what does not fit becomes the least one. -/
def toWord : Double → Int
  | .finite s m e =>
    let n := truncate s m e
    if minWord ≤ n ∧ n ≤ maxWord then n else minWord
  | _ => minWord

def isZero : Double → Bool
  | .finite _ m _ => m == 0
  | _ => false

/-- The number of decimal digits before the point of `n / d`, which may be negative or zero for
small numbers. -/
def decimalPoint (n d : Nat) : Int :=
  if d ≤ n then ((decimal (n / d)).length : Int)
  else
    let zeros := (decimal ((d - 1) / n)).length
    if d ≤ n * Nat.pow 10 (zeros - 1) then 2 - (zeros : Int)
    else if d ≤ n * Nat.pow 10 zeros then 1 - (zeros : Int) else -(zeros : Int)

/-- The digits and the exponent of the decimal number with at most `places` digits that is nearest
to `n / d` among those within the bounds, which are given in units of `1 / d`. A candidate `c` is
measured as `c * cUnit` against `n * nUnit`. -/
def onGrid? (n d below above : Nat) (closed : Bool) (point : Int) (places : Nat) :
    Option (Nat × Int) :=
  let p : Int := point - places
  let up := Nat.pow 10 p.natAbs
  let (cUnit, nUnit) := if p < 0 then (d, up) else (d * up, 1)
  let c := n * nUnit / cUnit
  let inside (c : Nat) : Bool :=
    let x := c * cUnit
    let lo := (n - below) * nUnit
    let hi := (n + above) * nUnit
    if closed then lo ≤ x && x ≤ hi else lo < x && x < hi
  let lowGap := n * nUnit - c * cUnit
  let highGap := (c + 1) * cUnit - n * nUnit
  if inside c && inside (c + 1) then
    some (if lowGap < highGap ∨ (lowGap = highGap ∧ c % 2 = 0) then c else c + 1, p)
  else if inside c then some (c, p)
  else if inside (c + 1) then some (c + 1, p)
  else none

/-- The fewest decimal digits that round back to a double, and their exponent. -/
def shortest (m : Nat) (e : Int) : Nat × Int :=
  if m = 0 then (0, 0)
  else
    let edge := m = leastNormal ∧ minExponent < e
    let (unit, d) := scaled 1 4 e
    let n := 4 * m * unit
    let above := 2 * unit
    let below := if edge then unit else 2 * unit
    let point := decimalPoint n d
    match ((List.range 17).findSome? fun k =>
      onGrid? n d below above (m % 2 = 0) point (k + 1)) with
    | some r => r
    | none => (0, 0)

/-- The decimal numeral of `digits * 10 ^ exponent`, without trailing zeros behind the point. -/
def positional (digits : Nat) (exponent : Int) : Bytes :=
  if exponent < 0 then
    let all := decimal digits
    let places := exponent.natAbs
    let padded := List.replicate (places + 1 - all.length) 48 ++ all
    let whole := padded.take (padded.length - places)
    let fraction := trimRight (· == 48) (padded.drop (padded.length - places))
    if fraction.isEmpty then whole else whole ++ 46 :: fraction
  else decimal (digits * Nat.pow 10 exponent.natAbs)

/-- The numeral of `digits * 10 ^ exponent` with one digit before the point and an exponent of at
least two digits. -/
def scientific (digits : Nat) (exponent : Int) : Bytes :=
  let all := decimal digits
  let e := exponent + (all.length : Int) - 1
  let fraction := all.drop 1
  let power := decimal e.natAbs
  all.take 1 ++ (if fraction.isEmpty then [] else 46 :: fraction) ++
    [101, if e < 0 then 45 else 43] ++ (if power.length < 2 then 48 :: power else power)

/-- The text of a double, with `write` for the digits and the exponent of a finite one. -/
def textWith (write : Nat → Int → Bytes) : Double → Bytes
  | .finite s m e =>
    let (digits, exponent) := shortest m e
    let body := write digits exponent
    if s then 45 :: body else body
  | .infinite s => utf8 (if s then "-Inf" else "+Inf")
  | .nan => utf8 "NaN"

def text : Double → Bytes := textWith positional

/-- Numbers below a ten-thousandth and from a million on are written with an exponent. -/
def shortText : Double → Bytes :=
  textWith fun digits exponent =>
    let point := (decimal digits).length + exponent
    if digits ≠ 0 ∧ (point < -3 ∨ 6 < point) then scientific digits exponent
    else positional digits exponent

/-- A number that orders doubles; one that is none comes first. -/
def order : Double → Int
  | .nan => -(Nat.pow 2 2200)
  | .infinite true => 1 - (Nat.pow 2 2200 : Nat)
  | .infinite false => (Nat.pow 2 2200 : Nat)
  | .finite s m e =>
    let n : Int := m * Nat.pow 2 (e - minExponent).toNat
    if s then -n else n

end Double

end StatementLang
