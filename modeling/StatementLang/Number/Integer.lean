import StatementLang.Number.Word
import StatementLang.Numeral

/-!
# Integers with a base prefix

`0x`, `0o` and `0b` choose the base, a leading zero means octal, and single underscores may
separate digits.
-/

namespace StatementLang.IntegerText

inductive Problem where
  | invalid
  | outOfRange
  deriving DecidableEq, Repr, Inhabited

def Problem.message : Problem → Bytes
  | .invalid => utf8 "invalid syntax"
  | .outOfRange => utf8 "value out of range"

def lowerByte (b : UInt8) : UInt8 := if 65 ≤ b ∧ b ≤ 90 then b + 32 else b

def digit? (b : UInt8) : Option Nat :=
  let l := lowerByte b
  if 48 ≤ b ∧ b ≤ 57 then some (b.toNat - 48)
  else if 97 ≤ l ∧ l ≤ 122 then some (l.toNat - 87)
  else none

/-- The base named by a prefix, and the digits behind it. -/
def splitBase (text : Bytes) : Nat × Bytes :=
  match text with
  | 48 :: c :: d :: rest =>
    let l := lowerByte c
    if l = 98 then (2, d :: rest)
    else if l = 111 then (8, d :: rest)
    else if l = 120 then (16, d :: rest)
    else (8, c :: d :: rest)
  | 48 :: rest => (8, rest)
  | _ => (10, text)

/-- The kinds of characters that decide where an underscore may stand. -/
inductive Neighbour where
  | start
  | digit
  | underscore
  | other
  deriving DecidableEq

/-- Every underscore stands between digits, or between the prefix and a digit. -/
def underscoresOk (text : Bytes) : Bool :=
  let (hex, first, body) := match text with
    | 48 :: c :: rest =>
      let l := lowerByte c
      if l = 98 ∨ l = 111 ∨ l = 120 then (l == 120, Neighbour.digit, rest)
      else (false, Neighbour.start, text)
    | _ => (false, Neighbour.start, text)
  let step (s : Neighbour × Bool) (b : UInt8) : Neighbour × Bool :=
    let l := lowerByte b
    if (48 ≤ b && b ≤ 57) || (hex && 97 ≤ l && l ≤ 102) then (.digit, s.2)
    else if b = 95 then (.underscore, s.2 && s.1 = .digit)
    else (.other, s.2 && s.1 ≠ .underscore)
  let (last, ok) := body.foldl step (first, true)
  ok && last ≠ .underscore

/-- The value of digits in a base. A text is judged digit by digit, so a value that no longer fits
in 64 bits is reported before a bad digit behind it. -/
def magnitude (base : Nat) (underscores : Bool) : Nat → Bytes → Except Problem Nat
  | v, [] => .ok v
  | v, b :: rest =>
    if b = 95 ∧ underscores then magnitude base underscores v rest
    else match digit? b with
      | none => .error .invalid
      | some d =>
        if base ≤ d then .error .invalid
        else if wordCount ≤ v * base + d then .error .outOfRange
        else magnitude base underscores (v * base + d) rest

def parseUnsigned (text : Bytes) : Except Problem Nat :=
  if text.isEmpty then .error .invalid
  else
    let (base, digits) := splitBase text
    match magnitude base true 0 digits with
    | .error p => .error p
    | .ok v => if text.contains 95 && !underscoresOk text then .error .invalid else .ok v

/-- A value with its sign, if it fits in 64 bits. -/
def signed (negative : Bool) (v : Nat) : Except Problem Int :=
  let n : Int := if negative then -v else v
  if minWord ≤ n ∧ n ≤ maxWord then .ok n else .error .outOfRange

def splitSign (text : Bytes) : Bool × Bytes :=
  match text with
  | 43 :: rest => (false, rest)
  | 45 :: rest => (true, rest)
  | _ => (false, text)

def parse (text : Bytes) : Except Problem Int :=
  let (negative, body) := splitSign text
  match parseUnsigned body with
  | .error p => .error p
  | .ok v => signed negative v

def parseIn (base : Nat) (text : Bytes) : Except Problem Int :=
  let (negative, body) := splitSign text
  if body.isEmpty then .error .invalid
  else match magnitude base false 0 body with
    | .error p => .error p
    | .ok v => signed negative v

def parseBool? (text : Bytes) : Option Bool :=
  if ["1", "t", "T", "true", "TRUE", "True"].any (utf8 · == text) then some true
  else if ["0", "f", "F", "false", "FALSE", "False"].any (utf8 · == text) then some false
  else none

end StatementLang.IntegerText
