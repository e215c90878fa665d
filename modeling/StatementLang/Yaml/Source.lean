import StatementLang.Text.Utf8

/-!
# The characters of a document

A document is written in UTF-8, or in UTF-16 if it starts with a byte order mark that says so. It
is decoded one window of bytes after another. Something wrong in a window only counts once the
window is needed, so a source keeps the characters of the windows before it together with the
problem.
-/

namespace StatementLang.Yaml

inductive Encoding where
  | octets
  | wideLittle
  | wideBig
  deriving DecidableEq, Repr, Inhabited

def isAllowed (c : Nat) : Bool :=
  c == 0x09 || c == 0x0A || c == 0x0D || (0x20 ≤ c && c ≤ 0x7E) || c == 0x85 ||
    (0xA0 ≤ c && c ≤ 0xD7FF) || (0xE000 ≤ c && c ≤ 0xFFFD) || (0x10000 ≤ c && c ≤ 0x10FFFF)

/-- The number of bytes that a first byte announces, zero for a byte that announces none. -/
def announcedLength (b : UInt8) : Nat :=
  if b < 0x80 then 1
  else if b < 0xC0 then 0
  else if b < 0xE0 then 2
  else if b < 0xF0 then 3
  else if b < 0xF8 then 4
  else 0

/-- Whether a character that starts with these bytes has a shorter form. -/
def isOverlong (b : UInt8) (rest : Bytes) : Bool :=
  b == 0xC0 || b == 0xC1 || (b == 0xE0 && rest.headD 0 < 0xA0) || (b == 0xF0 && rest.headD 0 < 0x90)

/-- What a decoder finds at some place: a character, too few bytes for the one that starts there, or
`length` bytes that make none. -/
inductive Found where
  | char (code length : Nat)
  | incomplete (problem : String)
  | wrong (length : Nat) (problem : String)
  deriving Repr, Inhabited

/-- A character, if it is one that a document may hold. -/
def Found.allowed (code length : Nat) : Found :=
  if isAllowed code then .char code length else .wrong length "control characters are not allowed"

def octetsAt (b : UInt8) (rest : Bytes) : Found :=
  let n := announcedLength b
  let tail := rest.take (n - 1)
  if n = 0 then .wrong 1 "invalid leading UTF-8 octet"
  else if tail.length + 1 < n then .incomplete "incomplete UTF-8 octet sequence"
  else if !tail.all isTail then .wrong n "invalid trailing UTF-8 octet"
  else if isOverlong b rest then .wrong n "invalid length of a UTF-8 sequence"
  else match firstRune b rest with
    | (.char c, _) => .allowed c n
    | (.invalid _, _) => .wrong n "invalid Unicode character"

/-- The first character of units of two bytes, of which at most two are given. -/
def unitsAt : List Nat → Found
  | [] => .incomplete "incomplete UTF-16 character"
  | u :: rest =>
    if 0xDC00 ≤ u ∧ u ≤ 0xDFFF then .wrong 2 "unexpected low surrogate area"
    else if 0xD800 ≤ u ∧ u ≤ 0xDBFF then
      match rest with
      | [] => .incomplete "incomplete UTF-16 surrogate pair"
      | v :: _ =>
        if 0xDC00 ≤ v ∧ v ≤ 0xDFFF then
          .allowed (0x10000 + (u - 0xD800) * 1024 + (v - 0xDC00)) 4
        else .wrong 4 "expected low surrogate area"
    else .allowed u 2

/-- The units of two bytes at the start of a text, two at most. -/
def units (little : Bool) : Bytes → List Nat
  | a :: b :: c :: d :: _ => [unit a b, unit c d]
  | a :: b :: _ => [unit a b]
  | _ => []
where
  unit (a b : UInt8) : Nat := if little then a.toNat + b.toNat * 256 else a.toNat * 256 + b.toNat

def Encoding.at (e : Encoding) (b : UInt8) (rest : Bytes) : Found :=
  match e with
  | .octets => octetsAt b rest
  | .wideLittle => unitsAt (units true (b :: rest))
  | .wideBig => unitsAt (units false (b :: rest))

/-- The encoding that a byte order mark announces, and the length of the mark. -/
def encodingOf : Bytes → Encoding × Nat
  | 0xFF :: 0xFE :: _ => (.wideLittle, 2)
  | 0xFE :: 0xFF :: _ => (.wideBig, 2)
  | 0xEF :: 0xBB :: 0xBF :: _ => (.octets, 3)
  | _ => (.octets, 0)

def windowSize : Nat := 512

/-- Decodes the characters that end within `room` bytes, newest first, and gives the bytes behind
them. -/
def decodeWindow (e : Encoding) : (fuel room : Nat) → List Nat → Bytes →
    Except String (List Nat × Bytes)
  | 0, _, done, rest => .ok (done, rest)
  | _, _, done, [] => .ok (done, [])
  | fuel + 1, room, done, b :: rest =>
    match e.at b rest with
    | .char c n =>
      if room < n then .ok (done, b :: rest)
      else decodeWindow e fuel (room - n) (c :: done) ((b :: rest).drop n)
    | .incomplete _ => .ok (done, b :: rest)
    | .wrong n problem => if room < n then .ok (done, b :: rest) else .error problem

/-- Why there is nothing to decode at the start of a window. -/
def brokenOff (e : Encoding) (b : UInt8) (rest : Bytes) : String :=
  match e.at b rest with
  | .incomplete problem => problem
  | .wrong _ problem => problem
  | .char _ _ => ""

/-- Decodes window after window up to the first one with a problem; the characters are reversed. -/
def decodeFrom (e : Encoding) : (fuel room : Nat) → List Nat → Bytes → List Nat × Option String
  | 0, _, done, _ => (done, none)
  | _, _, done, [] => (done, none)
  | fuel + 1, room, done, b :: rest =>
    match decodeWindow e room room [] (b :: rest) with
    | .error problem => (done, some problem)
    | .ok ([], _) => (done, some (brokenOff e b rest))
    | .ok (chars, rest) => decodeFrom e fuel windowSize (chars ++ done) rest

def firstWindow (e : Encoding) (room : Nat) (text : Bytes) : Nat :=
  match decodeWindow e room room [] text with
  | .ok (chars, _) => chars.length
  | .error _ => 0

/-- Carriage returns, alone or before a newline, become newlines; the other breaks stay. The codes are
reversed, the characters in front of `done` are not. -/
def unifyBreaks (done : List Char) : List Nat → List Char
  | [] => done
  | 10 :: 13 :: rest => unifyBreaks ('\n' :: done) rest
  | c :: rest => unifyBreaks ((if c = 13 then '\n' else Char.ofNat c) :: done) rest

/-- The characters of a document, and why there are no more of them if something is wrong. If a
second byte order mark follows the first, the lines that start among the first `marked` characters
lose one character each. -/
structure Source where
  chars : List Char
  problem : Option String
  marked : Nat
  deriving Inhabited

namespace Source

def ofBytes (text : Bytes) : Source :=
  let (e, mark) := encodingOf text
  let body := text.drop mark
  let (codes, problem) := decodeFrom e (body.length + 1) (windowSize - mark) [] body
  let marked := if codes.getLast? = some 0xFEFF then firstWindow e (windowSize - mark) body - 3 else 0
  ⟨unifyBreaks [] codes, problem, marked⟩

end Source

end StatementLang.Yaml
