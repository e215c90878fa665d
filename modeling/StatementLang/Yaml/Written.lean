import StatementLang.Text.Quoted
import StatementLang.Yaml.Plain

/-!
# Scalars as they are written

A text is written without quotes if it is read back as itself. Otherwise it stands between single
quotes, or between double quotes with escapes if single ones cannot show it or if it would be taken
for another kind of value. A text with newlines is written as a literal block. Bytes that are no
characters are written in base 64.
-/

namespace StatementLang.Yaml

/-- A scalar behind its key, and whether its last line is ended already. -/
structure Written where
  text : Bytes
  ended : Bool
  deriving DecidableEq, Repr, Inhabited

namespace Written

def isSpaceCode (c : Nat) : Bool := c == 32

def isBlankCode (c : Nat) : Bool := c == 32 || c == 9

def isBreakCode (c : Nat) : Bool := c == 10 || c == 13 || c == 0x85 || c == 0x2028 || c == 0x2029

/-- The characters that need no escape between double quotes. -/
def isShown (c : Nat) : Bool :=
  c == 10 || (0x20 ≤ c && c ≤ 0x7E) || (0xA0 ≤ c && c ≤ 0xD7FF) ||
    (0xE000 ≤ c && c ≤ 0xFFFD && c ≠ 0xFEFF)

/-- Whether some character that satisfies `p` is followed by one that satisfies `q`. -/
def hasPair (p q : Nat → Bool) (cs : List Nat) : Bool :=
  (cs.zip cs.tail).any fun (a, b) => p a && q b

/-- The characters that start something else than a text. -/
def indicators : List Nat := "#,[]\x7b\x7d&*!|>'\"%@\x60".toList.map Char.toNat

/-- Whether the text without quotes would be taken for a mark of the document, for the start of
something else, for a key or for a text with a comment. -/
def hasIndicator (cs : List Nat) : Bool :=
  cs.take 3 == [45, 45, 45] || cs.take 3 == [46, 46, 46] ||
    cs.head?.any (fun c => indicators.contains c) ||
    (cs.head?.any (fun c => c == 63 || c == 45) && cs.tail.head?.all isBlankCode) ||
    hasPair (· == 58) isBlankCode cs || cs.getLast? == some 58 ||
    hasPair (fun c => isBlankCode c || isBreakCode c) (· == 35) cs

def isSpecial (c : Nat) : Bool := !isShown c && c ≠ 9

/-- A text between single quotes shows all its characters, and no blank beside a break. -/
def singleAllowed (cs : List Nat) : Bool :=
  !(cs.any (fun c => c == 9 || isSpecial c) || hasPair isSpaceCode isBreakCode cs ||
    hasPair isBreakCode isSpaceCode cs)

def plainAllowed (cs : List Nat) : Bool :=
  singleAllowed cs && !cs.any isBreakCode && !cs.head?.any isSpaceCode &&
    !cs.getLast?.any isSpaceCode && !hasIndicator cs

def literalAllowed (cs : List Nat) : Bool :=
  !(cs.any isSpecial || hasPair isSpaceCode isBreakCode cs || cs.getLast?.any isSpaceCode)

def escapeLetter? : Nat → Option Char
  | 0 => some '0'
  | 7 => some 'a'
  | 8 => some 'b'
  | 9 => some 't'
  | 10 => some 'n'
  | 11 => some 'v'
  | 12 => some 'f'
  | 13 => some 'r'
  | 27 => some 'e'
  | 34 => some '"'
  | 92 => some '\\'
  | 0x85 => some 'N'
  | 0xA0 => some '_'
  | 0x2028 => some 'L'
  | 0x2029 => some 'P'
  | _ => none

def upperHex (width n : Nat) : Bytes :=
  (hexDigits width n).map fun b => if 97 ≤ b then b - 32 else b

def escape (c : Nat) : Bytes :=
  92 :: match escapeLetter? c with
    | some l => [UInt8.ofNat l.toNat]
    | none =>
      if c ≤ 0xFF then 120 :: upperHex 2 c
      else if c ≤ 0xFFFF then 117 :: upperHex 4 c
      else 85 :: upperHex 8 c

/-- Behind a byte order mark at the start, every character is escaped. -/
def doubleQuoted (cs : List Nat) : Bytes :=
  let marked := cs.head? = some 0xFEFF
  34 :: cs.flatMap (fun c =>
    if marked ∨ !isShown c ∨ isBreakCode c ∨ c = 34 ∨ c = 92 then escape c else encodeRune c) ++ [34]

def margin : Bytes := List.replicate 4 space

/-- The characters with the ones before them; the first one has none. -/
def withPrevious (cs : List Nat) : List (Nat × Option Nat) := cs.zip (none :: cs.map some)

/-- The sign that says what becomes of the breaks at the end: none is there, one, or more. -/
def chompingSign (cs : List Nat) : Bytes :=
  match cs.reverse with
  | a :: b :: _ => if !isBreakCode a then [45] else if isBreakCode b then [43] else []
  | [a] => if isBreakCode a then [43] else [45]
  | [] => [45]

/-- The lines of a literal block. The break in front of the first line is left out if the text starts
with one. -/
def literalLines (cs : List Nat) : Bytes :=
  (withPrevious cs).flatMap fun (c, before) =>
    if isBreakCode c then encodeRune c
    else match before with
      | none => newline :: margin ++ encodeRune c
      | some b => if isBreakCode b then margin ++ encodeRune c else encodeRune c

/-- A literal block. Its indentation is given if its first line does not show it. -/
def literal (cs : List Nat) : Written :=
  let hint : Bytes := if cs.head?.any (fun c => isSpaceCode c || isBreakCode c) then [50] else []
  ⟨124 :: hint ++ chompingSign cs ++ literalLines cs, cs.getLast?.any isBreakCode⟩

def singleLines (cs : List Nat) : Bytes :=
  (withPrevious cs).flatMap fun (c, before) =>
    (if before.any isBreakCode && !isBreakCode c then margin else []) ++
      if c = 39 then [39, 39] else encodeRune c

def singleQuoted (cs : List Nat) : Bytes := 39 :: singleLines cs ++ [39]

/-- Writes characters; `bare` says whether they may stand without quotes. -/
def ofCodes (bare : Bool) (cs : List Nat) : Written :=
  if cs.contains 10 then
    if literalAllowed cs then literal cs else ⟨doubleQuoted cs, false⟩
  else if bare then
    if plainAllowed cs then ⟨cs.flatMap encodeRune, false⟩
    else if singleAllowed cs then ⟨singleQuoted cs, false⟩
    else ⟨doubleQuoted cs, false⟩
  else ⟨doubleQuoted cs, false⟩

/-- The words that older readers take for truth values. -/
def oldBooleans : List Bytes :=
  ["y", "Y", "yes", "Yes", "YES", "on", "On", "ON", "n", "N", "no", "No", "NO", "off", "Off",
    "OFF"].map utf8

/-- The minutes and seconds of a number in base sixty: one or two digits below sixty behind each
colon, and possibly a fraction at the end. -/
def sexagesimalTail : (fuel : Nat) → Bytes → Bool
  | 0, _ => false
  | fuel + 1, t =>
    match t with
    | 58 :: rest =>
      let (digits, tail) := rest.span isFigure
      let fits := digits.length == 1 || (digits.length == 2 && digits.all isFigure &&
        digits.headD 57 ≤ 53)
      fits && match tail with
        | [] => true
        | 46 :: fraction => fraction.all fun b => isFigure b || b == 95
        | tail => sexagesimalTail fuel tail
    | _ => false

/-- A number in base sixty, which older readers know. -/
def isSexagesimal (t : Bytes) : Bool :=
  let (_, body) := IntegerText.splitSign t
  body.head?.any isFigure &&
    sexagesimalTail t.length (body.dropWhile fun b => isFigure b || b == 95)

/-- Whether a text is read back as itself by every reader. -/
def isBare (t : Bytes) : Bool :=
  Scalar.ofPlain true t = .text t && !oldBooleans.contains t && !isSexagesimal t

/-- The lines of a text in base 64; a single short one is not ended. -/
def lettersFrom : (fuel : Nat) → Bytes → Bytes
  | 0, _ => []
  | _, [] => []
  | fuel + 1, t => line (t.take 70) ++ lettersFrom fuel (t.drop 70)

def letters (t : Bytes) : Bytes :=
  let all := Base64.encode t
  if all.length < 70 then all else lettersFrom all.length all

/-- Whether every byte belongs to a character. -/
def isReadable (rs : List Rune) : Bool :=
  rs.all fun
    | .char _ => true
    | .invalid _ => false

def ofText (t : Bytes) : Written :=
  let rs := runes t
  if isReadable rs then ofCodes (isBare t) (rs.map Rune.code)
  else
    let w := ofCodes true ((letters t).map UInt8.toNat)
    ⟨utf8 "!!binary " ++ w.text, w.ended⟩

end Written

end StatementLang.Yaml
