/-!
# Texts as bytes

Source texts, names and messages are lists of bytes. Nothing requires them to be valid UTF-8, and
columns and offsets count bytes. This module holds the type, constants written as strings, and
decimal numerals.
-/

namespace StatementLang

abbrev Bytes := List UInt8

def utf8 (s : String) : Bytes := s.toUTF8.toList

def newline : UInt8 := 10

def space : UInt8 := 32

/-- The byte of a digit below ten. -/
def digitByte (d : Nat) : UInt8 := UInt8.ofNat (48 + d)

/-- The decimal numeral of a natural number, without leading zeros. -/
def decimal (n : Nat) : Bytes :=
  if n < 10 then [digitByte n] else decimal (n / 10) ++ [digitByte (n % 10)]

theorem decimal_small {n : Nat} (h : n < 10) : decimal n = [digitByte n] := by
  rw [decimal, if_pos h]

theorem decimal_large {n : Nat} (h : 10 ≤ n) :
    decimal n = decimal (n / 10) ++ [digitByte (n % 10)] := by
  rw [decimal, if_neg (Nat.not_lt.mpr h)]

def intText : Int → Bytes
  | .ofNat n => decimal n
  | .negSucc n => 45 :: decimal (n + 1)

@[simp] theorem intText_natCast (n : Nat) : intText n = decimal n := rfl

def line (text : Bytes) : Bytes := text ++ [newline]

def joinWith (sep : Bytes) (texts : List Bytes) : Bytes := (texts.intersperse sep).flatten

/-- The part before the first byte that satisfies `p`, and the rest from that byte on. -/
def splitBefore (p : UInt8 → Bool) (text : Bytes) : Bytes × Bytes :=
  text.span (fun b => !p b)

/-- The pieces of a text between the bytes equal to `sep`; never empty. -/
def splitOn (sep : UInt8) (text : Bytes) : List Bytes :=
  let (pieces, last) := text.foldl
    (fun (done, piece) b => if b = sep then (piece.reverse :: done, []) else (done, b :: piece))
    (([] : List Bytes), ([] : Bytes))
  (last.reverse :: pieces).reverse

def trimRight (p : UInt8 → Bool) (text : Bytes) : Bytes := (text.reverse.dropWhile p).reverse

end StatementLang
