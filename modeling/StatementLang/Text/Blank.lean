import StatementLang.Text.Utf8

/-!
# White space between characters

The white space of dot-commands, option values and interactive lines is Unicode's. The language
itself knows four blank bytes only; see the scanner.
-/

namespace StatementLang

def isSpaceCode (c : Nat) : Bool :=
  (0x09 ≤ c && c ≤ 0x0D) || c == 0x20 || c == 0x85 || c == 0xA0 || c == 0x1680 ||
    (0x2000 ≤ c && c ≤ 0x200A) || c == 0x2028 || c == 0x2029 || c == 0x202F || c == 0x205F ||
    c == 0x3000

def Rune.isSpace : Rune → Bool
  | .char c => isSpaceCode c
  | .invalid _ => false

/-- The text without white space at either end. -/
def trimSpace (text : Bytes) : Bytes :=
  ((((runes text).dropWhile Rune.isSpace).reverse.dropWhile Rune.isSpace).reverse).flatMap
    Rune.bytes

/-- The text up to the first white space behind its leading white space. -/
def firstField (text : Bytes) : Bytes :=
  (((runes text).dropWhile Rune.isSpace).takeWhile (fun r => !r.isSpace)).flatMap Rune.bytes

end StatementLang
