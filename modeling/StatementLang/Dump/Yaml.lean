import StatementLang.Token
import StatementLang.Yaml.Written

/-!
# Token dumps as YAML

A block list with one mapping for a token. An empty literal is left out.
-/

namespace StatementLang.YamlDump

/-- A key with a text behind it, on as many lines as the text takes. -/
def textField (key : String) (text : Bytes) : Bytes :=
  let w := Yaml.Written.ofText text
  utf8 key ++ utf8 ": " ++ if w.ended then w.text else line w.text

def entry (t : Token) : Bytes :=
  utf8 "- " ++ textField "type" t.kind.name ++
    (if t.literal.isEmpty then [] else utf8 "  " ++ textField "literal" t.literal) ++
    line (utf8 "  line: " ++ intText t.pos.line) ++
    line (utf8 "  column: " ++ intText t.pos.column) ++
    line (utf8 "  offset: " ++ intText t.pos.offset)

def render (tokens : List Token) : Bytes :=
  if tokens.isEmpty then utf8 "[]\n" else tokens.flatMap entry

/-- A piece of a dump ends with the character that brings it to this size. -/
def pieceSize : Nat := 123

/-- The pieces of characters. `piece` holds those of the current one and `done` the pieces before it,
newest first. -/
def piecesFrom (done : List Bytes) (size : Nat) (piece : List Bytes) : List Bytes → List Bytes
  | [] => (if piece.isEmpty then done else piece.reverse.flatten :: done).reverse
  | c :: rest =>
    if pieceSize ≤ size then piecesFrom (piece.reverse.flatten :: done) c.length [c] rest
    else piecesFrom done (size + c.length) (c :: piece) rest

def pieces (tokens : List Token) : List Bytes :=
  piecesFrom [] 0 [] ((runes (render tokens)).map Rune.bytes)

end StatementLang.YamlDump
