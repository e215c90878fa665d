import StatementLang.Bytes

/-!
# Characters in a byte text

A text is read as a list of runes: code points in their shortest UTF-8 form, and single bytes that
start none.
-/

namespace StatementLang

inductive Rune where
  | char (code : Nat)
  | invalid (byte : UInt8)
  deriving DecidableEq, Repr, Inhabited

def replacement : Nat := 0xFFFD

def isTail (b : UInt8) : Bool := 0x80 ≤ b && b ≤ 0xBF

/-- The least and greatest second byte of a character of three or four bytes. -/
def secondBounds (b : UInt8) : UInt8 × UInt8 :=
  if b = 0xE0 then (0xA0, 0xBF)
  else if b = 0xED then (0x80, 0x9F)
  else if b = 0xF0 then (0x90, 0xBF)
  else if b = 0xF4 then (0x80, 0x8F)
  else (0x80, 0xBF)

/-- The first rune of `b :: rest` and the number of bytes of `rest` that it takes. -/
def firstRune (b : UInt8) (rest : Bytes) : Rune × Nat :=
  if b < 0x80 then (.char b.toNat, 0)
  else if 0xC2 ≤ b ∧ b ≤ 0xDF then
    match rest with
    | c :: _ =>
      if isTail c then (.char ((b.toNat - 0xC0) * 64 + (c.toNat - 0x80)), 1) else (.invalid b, 0)
    | _ => (.invalid b, 0)
  else if 0xE0 ≤ b ∧ b ≤ 0xEF then
    match rest with
    | c :: d :: _ =>
      let (lo, hi) := secondBounds b
      if lo ≤ c ∧ c ≤ hi ∧ isTail d then
        (.char ((b.toNat - 0xE0) * 4096 + (c.toNat - 0x80) * 64 + (d.toNat - 0x80)), 2)
      else (.invalid b, 0)
    | _ => (.invalid b, 0)
  else if 0xF0 ≤ b ∧ b ≤ 0xF4 then
    match rest with
    | c :: d :: e :: _ =>
      let (lo, hi) := secondBounds b
      if lo ≤ c ∧ c ≤ hi ∧ isTail d ∧ isTail e then
        (.char ((b.toNat - 0xF0) * 262144 + (c.toNat - 0x80) * 4096 + (d.toNat - 0x80) * 64 +
          (e.toNat - 0x80)), 3)
      else (.invalid b, 0)
    | _ => (.invalid b, 0)
  else (.invalid b, 0)

def runesFrom (done : List Rune) : Bytes → List Rune
  | [] => done.reverse
  | b :: rest => runesFrom ((firstRune b rest).1 :: done) (rest.drop (firstRune b rest).2)
termination_by text => text.length
decreasing_by simp only [List.length_drop, List.length_cons]; omega

def runes (text : Bytes) : List Rune := runesFrom [] text

/-- The shortest UTF-8 form of a code point. -/
def encodeRune (c : Nat) : Bytes :=
  if c < 0x80 then [UInt8.ofNat c]
  else if c < 0x800 then [UInt8.ofNat (0xC0 + c / 64), UInt8.ofNat (0x80 + c % 64)]
  else if c < 0x10000 then
    [UInt8.ofNat (0xE0 + c / 4096), UInt8.ofNat (0x80 + c / 64 % 64), UInt8.ofNat (0x80 + c % 64)]
  else
    [UInt8.ofNat (0xF0 + c / 262144), UInt8.ofNat (0x80 + c / 4096 % 64),
      UInt8.ofNat (0x80 + c / 64 % 64), UInt8.ofNat (0x80 + c % 64)]

def Rune.bytes : Rune → Bytes
  | .char c => encodeRune c
  | .invalid b => [b]

/-- The code point a reader sees: unreadable bytes show as the replacement character. -/
def Rune.code : Rune → Nat
  | .char c => c
  | .invalid _ => replacement

end StatementLang
