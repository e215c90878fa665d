import StatementLang.Numeral

/-!
# Dates and times

A date, alone or with a time of day. Only the year has a fixed number of digits. A time behind a
letter names its zone, a time behind spaces has none.
-/

namespace StatementLang.Yaml

/-- The zone of a time: universal time, a written offset of zero, or another offset. -/
inductive Zone where
  | universal
  | noOffset
  | offset
  deriving DecidableEq, Repr, Inhabited

structure Timestamp where
  year : Nat
  month : Nat
  day : Nat
  hour : Nat
  minute : Nat
  second : Nat
  nanosecond : Nat
  zone : Zone
  deriving DecidableEq, Repr, Inhabited

def isFigure (b : UInt8) : Bool := 48 ≤ b && b ≤ 57

namespace Timestamp

def daysIn (year month : Nat) : Nat :=
  if month = 2 then (if year % 4 = 0 ∧ (year % 100 ≠ 0 ∨ year % 400 = 0) then 29 else 28)
  else if month = 4 ∨ month = 6 ∨ month = 9 ∨ month = 11 then 30 else 31

def number? : Bytes → Option (Nat × Bytes)
  | a :: b :: rest =>
    if isFigure a then
      if isFigure b then some (decimalValue [a, b], rest) else some (digitValue a, b :: rest)
    else none
  | [a] => if isFigure a then some (digitValue a, []) else none
  | [] => none

def expect? (b : UInt8) : Bytes → Option Bytes
  | c :: rest => if c = b then some rest else none
  | [] => none

def date? (t : Bytes) : Option (Timestamp × Bytes) := do
  let (y, rest) := t.span isFigure
  let (month, rest) ← number? (← expect? 45 rest)
  let (day, rest) ← number? (← expect? 45 rest)
  let year := decimalValue y
  if y.length = 4 ∧ 1 ≤ month ∧ month ≤ 12 ∧ 1 ≤ day ∧ day ≤ daysIn year month then
    return (⟨year, month, day, 0, 0, 0, 0, .universal⟩, rest)
  else none

/-- The nanoseconds of a fraction, of which nine digits count, and the text behind it. Without a
digit there is no fraction. -/
def fraction (t : Bytes) : Nat × Bytes :=
  match t with
  | c :: rest =>
    let (digits, tail) := rest.span isFigure
    if (c = 46 ∨ c = 44) ∧ !digits.isEmpty then
      let used := digits.take 9
      (decimalValue used * Nat.pow 10 (9 - used.length), tail)
    else (0, t)
  | [] => (0, [])

/-- Hours, minutes and seconds with a fraction, added to a date. -/
def clock? (date : Timestamp) (t : Bytes) : Option (Timestamp × Bytes) := do
  let (hour, rest) ← number? t
  let (minute, rest) ← number? (← expect? 58 rest)
  let (second, rest) ← number? (← expect? 58 rest)
  let (nanosecond, rest) := fraction rest
  if hour < 24 ∧ minute < 60 ∧ second < 60 then
    return ({ date with hour, minute, second, nanosecond }, rest)
  else none

/-- The letter for universal time, or an offset of at most 24 hours and 60 minutes. -/
def zone? : Bytes → Option Zone
  | [90] => some .universal
  | [s, a, b, 58, c, d] =>
    let hours := decimalValue [a, b]
    let minutes := decimalValue [c, d]
    if (s = 43 ∨ s = 45) ∧ [a, b, c, d].all isFigure ∧ hours ≤ 24 ∧ minutes ≤ 60 then
      some (if hours = 0 ∧ minutes = 0 then .noOffset else .offset)
    else none
  | _ => none

def parse? (t : Bytes) : Option Timestamp := do
  let (date, rest) ← date? t
  match rest with
  | [] => return date
  | c :: tail =>
    if c = space then
      let (moment, rest) ← clock? date (tail.dropWhile (· = space))
      if rest.isEmpty then return moment else none
    else if c = 84 ∨ c = 116 then
      let (moment, rest) ← clock? date tail
      return { moment with zone := ← zone? rest }
    else none

end Timestamp

end StatementLang.Yaml
