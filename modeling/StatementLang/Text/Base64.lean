import StatementLang.Bytes

/-!
# Bytes written in base 64

Four letters stand for three bytes. The last group may be filled up with equals signs, and line
breaks do not count.
-/

namespace StatementLang

namespace Base64

def sextet? (b : UInt8) : Option Nat :=
  if 65 ≤ b ∧ b ≤ 90 then some (b.toNat - 65)
  else if 97 ≤ b ∧ b ≤ 122 then some (b.toNat - 71)
  else if 48 ≤ b ∧ b ≤ 57 then some (b.toNat + 4)
  else if b = 43 then some 62
  else if b = 47 then some 63
  else none

/-- The bytes of whole groups; bits behind the last whole byte are ignored. -/
def groups? : Bytes → Option Bytes
  | [] => some []
  | [a, b, 61, 61] => do
    let x ← sextet? a
    let y ← sextet? b
    return [UInt8.ofNat (x * 4 + y / 16)]
  | [a, b, c, 61] => do
    let x ← sextet? a
    let y ← sextet? b
    let z ← sextet? c
    return [UInt8.ofNat (x * 4 + y / 16), UInt8.ofNat (y % 16 * 16 + z / 4)]
  | a :: b :: c :: d :: rest => do
    let x ← sextet? a
    let y ← sextet? b
    let z ← sextet? c
    let w ← sextet? d
    let more ← groups? rest
    return UInt8.ofNat (x * 4 + y / 16) :: UInt8.ofNat (y % 16 * 16 + z / 4) ::
      UInt8.ofNat (z % 4 * 64 + w) :: more
  | _ => none

def decode? (text : Bytes) : Option Bytes := groups? (text.filter fun b => b ≠ 10 && b ≠ 13)

def letter (n : Nat) : UInt8 :=
  if n < 26 then UInt8.ofNat (n + 65)
  else if n < 52 then UInt8.ofNat (n + 71)
  else if n < 62 then UInt8.ofNat (n - 4)
  else if n = 62 then 43 else 47

/-- The letters of a text, filled up with equals signs. -/
def encode : Bytes → Bytes
  | [] => []
  | [a] => [letter (a.toNat / 4), letter (a.toNat % 4 * 16), 61, 61]
  | [a, b] =>
    [letter (a.toNat / 4), letter (a.toNat % 4 * 16 + b.toNat / 16), letter (b.toNat % 16 * 4), 61]
  | a :: b :: c :: rest =>
    letter (a.toNat / 4) :: letter (a.toNat % 4 * 16 + b.toNat / 16) ::
      letter (b.toNat % 16 * 4 + c.toNat / 64) :: letter (c.toNat % 64) :: encode rest

end Base64

end StatementLang
