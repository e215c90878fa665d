import StatementLang.Text.Printable
import StatementLang.Text.Utf8

/-!
# Quoted text

A quoted text stands between double quotes on one line of printable characters: quotes and
backslashes are escaped, the usual controls have letters, and everything else that cannot be shown
is written as a number.
-/

namespace StatementLang

def hexDigit (d : Nat) : UInt8 := if d < 10 then UInt8.ofNat (48 + d) else UInt8.ofNat (87 + d)

def hexDigits : (width : Nat) → Nat → Bytes
  | 0, _ => []
  | width + 1, n => hexDigits width (n / 16) ++ [hexDigit (n % 16)]

def escapeLetter : Nat → Option Char
  | 7 => some 'a'
  | 8 => some 'b'
  | 9 => some 't'
  | 10 => some 'n'
  | 11 => some 'v'
  | 12 => some 'f'
  | 13 => some 'r'
  | _ => none

def quoteRune : Rune → Bytes
  | .invalid b => utf8 "\\x" ++ hexDigits 2 b.toNat
  | .char c =>
    if c = 34 ∨ c = 92 then [92, UInt8.ofNat c]
    else if isPrintable c then encodeRune c
    else match escapeLetter c with
      | some l => [92, UInt8.ofNat l.toNat]
      | none =>
        if c < 0x20 ∨ c = 0x7F then utf8 "\\x" ++ hexDigits 2 c
        else if c < 0x10000 then utf8 "\\u" ++ hexDigits 4 c
        else utf8 "\\U" ++ hexDigits 8 c

/-- The text between double quotes, with what cannot be shown escaped. -/
def quote (text : Bytes) : Bytes := 34 :: (runes text).flatMap quoteRune ++ [34]

end StatementLang
