import StatementLang.Yaml.Block

/-!
# Directives

A line that starts with a percent sign says something about the document below it: its version, or
what a tag handle stands for.
-/

namespace StatementLang.Yaml

def isWordChar (c : Char) : Bool := c.isAlphanum || c == '_' || c == '-'

def isUriChar (c : Char) : Bool := isWordChar c || ";/?:@&=+$.!~*'()%,[]".toList.contains c

/-- The octet of a percent sign with two hexadecimal digits, and the text behind it. -/
def octet : List Char → Except String (UInt8 × List Char)
  | '%' :: a :: b :: rest =>
    match hexValue? a, hexValue? b with
    | some x, some y => .ok (UInt8.ofNat (x * 16 + y), rest)
    | _, _ => .error "did not find URI escaped octet"
  | _ => .error "did not find URI escaped octet"

/-- The octets behind the first one of a character; `done` is reversed. -/
def trailingOctets : (count : Nat) → Bytes → List Char → Except String (Bytes × List Char)
  | 0, done, cs => .ok (done, cs)
  | count + 1, done, cs => do
    let (b, rest) ← octet cs
    if isTail b then trailingOctets count (b :: done) rest
    else .error "found an incorrect trailing UTF-8 octet"

/-- A URI with its escapes resolved, one character a step; `done` is reversed. -/
def uriFrom : (fuel : Nat) → Bytes → List Char → Except String (Bytes × List Char)
  | fuel + 1, done, c :: rest =>
    if c == '%' then do
      let (b, tail) ← octet (c :: rest)
      let width := announcedLength b
      if width = 0 then .error "found an incorrect leading UTF-8 octet"
      else
        let (done, tail) ← trailingOctets (width - 1) (b :: done) tail
        uriFrom fuel done tail
    else if isUriChar c then uriFrom fuel (UInt8.ofNat c.toNat :: done) rest
    else .ok (done.reverse, c :: rest)
  | _, done, cs => .ok (done.reverse, cs)

def uri (cs : List Char) : Except String (Bytes × List Char) :=
  uriFrom (cs.takeWhile isUriChar).length.succ [] cs

namespace Directive

abbrev Reader (α : Type) := List Char → Except String (α × List Char)

/-- A number of one or two digits. -/
def number : Reader Nat := fun cs =>
  let (digits, rest) := cs.span isDigitChar
  if digits.isEmpty then .error "did not find expected version number"
  else if digits.length > 2 then .error "found extremely long version number"
  else .ok (digits.foldl (fun n d => n * 10 + (d.toNat - 48)) 0, rest)

def version : Reader TokenKind := fun cs => do
  let (major, rest) ← number (cs.dropWhile isBlank)
  match rest with
  | '.' :: rest =>
    let (minor, rest) ← number rest
    return (.version major minor, rest)
  | _ => .error "did not find expected digit or '.' character"

/-- One exclamation mark, or a word between two. -/
def handle : Reader (List Char)
  | '!' :: rest =>
    let (word, rest) := rest.span isWordChar
    match rest with
    | '!' :: rest => .ok ('!' :: word ++ ['!'], rest)
    | _ => if word.isEmpty then .ok (['!'], rest) else .error "did not find expected '!'"
  | _ => .error "did not find expected '!'"

def tag : Reader TokenKind := fun cs => do
  let (name, rest) ← handle (cs.dropWhile isBlank)
  if !rest.head?.any isBlank then .error "did not find expected whitespace"
  else
    let (expansion, tail) ← uri (rest.dropWhile isBlank)
    if expansion.isEmpty then .error "did not find expected tag URI"
    else if !blankNext tail then .error "did not find expected whitespace or line break"
    else return (.tagHandle (textOf name.reverse) expansion, tail)

/-- The directive of a line, given without its percent sign. Only a comment may stand behind it. -/
def read (cs : List Char) : Except String TokenKind := do
  let (name, rest) := cs.span isWordChar
  if name.isEmpty then .error "could not find expected directive name"
  else if !blankNext rest then .error "found unexpected non-alphabetical character"
  else
    let (kind, rest) ←
      if name = "YAML".toList then version rest
      else if name = "TAG".toList then tag rest
      else .error "found unknown directive name"
    let rest := rest.dropWhile isBlank
    if breakNext rest || rest.head? = some '#' then return kind
    else .error "did not find expected comment or line break"

end Directive

end StatementLang.Yaml
