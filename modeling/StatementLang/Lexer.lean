import StatementLang.Token

/-!
# Scanning

A cursor stands in a text. Each pull skips blanks and takes the token in front of the cursor:
punctuation first, then the keywords, which are matched without regard to what follows them, then
the longest run of letters or of digits. A text whose next byte starts no token stays where it is
and fails on every later pull.
-/

namespace StatementLang

/-- The blanks of the language: space, tab, newline and carriage return. -/
def isBlank (b : UInt8) : Bool := b == 32 || b == 9 || b == 10 || b == 13

def isLower (b : UInt8) : Bool := 97 ≤ b && b ≤ 122

def isDigit (b : UInt8) : Bool := 48 ≤ b && b ≤ 57

def varWord : Bytes := [118, 97, 114]

def printWord : Bytes := [112, 114, 105, 110, 116]

/-- The lexeme at the front of a text that starts with no blank; the end of the text is one too. -/
def lexeme? : Bytes → Option Lexeme
  | [] => some ⟨.eof, []⟩
  | b :: rest =>
    if b = 59 then some ⟨.semicolon, [59]⟩
    else if b = 61 then some ⟨.assign, [61]⟩
    else if varWord.isPrefixOf (b :: rest) then some ⟨.var, varWord⟩
    else if printWord.isPrefixOf (b :: rest) then some ⟨.print, printWord⟩
    else if isLower b then some ⟨.ident, b :: rest.takeWhile isLower⟩
    else if isDigit b then some ⟨.int, b :: rest.takeWhile isDigit⟩
    else none

/-- Only the end of the text is an empty lexeme. -/
theorem lexeme?_literal_pos {text : Bytes} {l : Lexeme} (h : lexeme? text = some l)
    (hk : l.kind ≠ .eof) : 0 < l.literal.length ∧ 0 < text.length := by
  cases text with
  | nil => simp only [lexeme?, Option.some.injEq] at h; subst h; exact absurd rfl hk
  | cons b rest =>
    simp only [lexeme?] at h
    repeat' split at h
    all_goals first
      | (injection h with h; subst h; simp [varWord, printWord])
      | cases h

/-- The failure of a pull: the text from the byte on that starts no token. -/
structure LexError where
  pos : Position
  remainder : Bytes
  deriving DecidableEq, Repr, Inhabited

namespace LexError

/-- The wording shared by every report of a lexical error. -/
def message (e : LexError) : Bytes := utf8 "no matched token at: " ++ e.remainder

def text (e : LexError) : Bytes :=
  utf8 "lexer error at line " ++ intText e.pos.line ++ utf8 ", column " ++ intText e.pos.column ++
    utf8 ": " ++ e.message

end LexError

/-- The text still to be scanned and the position of its first byte. -/
structure Cursor where
  rest : Bytes
  pos : Position
  deriving DecidableEq, Repr, Inhabited

namespace Cursor

def start (src : Bytes) : Cursor := ⟨src, .start⟩

def skipBlanks (c : Cursor) : Cursor :=
  ⟨c.rest.dropWhile isBlank, c.pos.afterText (c.rest.takeWhile isBlank)⟩

def advance (n : Nat) (c : Cursor) : Cursor :=
  ⟨c.rest.drop n, c.pos.afterText (c.rest.take n)⟩

/-- Pulls the next token. At the end of the text every pull gives the end of input. -/
def next (c : Cursor) : Except LexError Token × Cursor :=
  let c := c.skipBlanks
  match lexeme? c.rest with
  | some l => (.ok ⟨l, c.pos⟩, c.advance l.literal.length)
  | none => (.error ⟨c.pos, c.rest⟩, c)

theorem length_skipBlanks (c : Cursor) : c.skipBlanks.rest.length ≤ c.rest.length :=
  (List.dropWhile_sublist isBlank).length_le

theorem length_next (c : Cursor) : c.next.2.rest.length ≤ c.rest.length := by
  have hs := c.length_skipBlanks
  simp only [next]
  split
  · simp only [advance, List.length_drop]; omega
  · exact hs

/-- A token other than the end of input takes at least one byte. -/
theorem length_next_lt {c : Cursor} {t : Token} (h : c.next.1 = .ok t) (hk : t.kind ≠ .eof) :
    c.next.2.rest.length < c.rest.length := by
  have hs := c.length_skipBlanks
  simp only [next] at h ⊢
  split at h
  · rename_i l hl
    injection h with h
    subst h
    have := lexeme?_literal_pos hl hk
    simp only [advance, List.length_drop]
    omega
  · cases h

def pulls : Nat → Cursor → List (Except LexError Token)
  | 0, _ => []
  | n + 1, c => c.next.1 :: pulls n c.next.2

end Cursor

/-- All tokens of a text up to the end of input, or those before the byte that starts none. -/
structure Scan where
  tokens : List Token
  error : Option LexError
  deriving DecidableEq, Repr, Inhabited

/-- Pulls tokens up to the end of input or the first failure, behind those in `done`. -/
def scanFrom (done : List Token) (c : Cursor) : Scan :=
  match _h : c.next.1 with
  | .error e => ⟨done.reverse, some e⟩
  | .ok t => if t.kind = .eof then ⟨(t :: done).reverse, none⟩ else scanFrom (t :: done) c.next.2
termination_by c.rest.length
decreasing_by exact Cursor.length_next_lt _h (by assumption)

def tokenize (src : Bytes) : Scan := scanFrom [] (.start src)

end StatementLang
