import StatementLang.Token

/-!
# Token dumps as JSON

An indented array with one object for a token. An empty literal is left out.
-/

namespace StatementLang.JsonDump

/-- Controls have short escapes or code units; markup characters and line separators are always
escaped, and an unreadable byte shows as the replacement character. -/
def escapeRune : Rune → Bytes
  | .invalid _ => encodeRune replacement
  | .char c =>
    if c = 34 ∨ c = 92 then [92, UInt8.ofNat c]
    else if c = 8 then utf8 "\\b"
    else if c = 12 then utf8 "\\f"
    else if c = 10 then utf8 "\\n"
    else if c = 13 then utf8 "\\r"
    else if c = 9 then utf8 "\\t"
    else if c < 0x20 ∨ c = 0x3C ∨ c = 0x3E ∨ c = 0x26 ∨ c = 0x2028 ∨ c = 0x2029 then
      utf8 "\\u" ++ hexDigits 4 c
    else encodeRune c

def string (text : Bytes) : Bytes := 34 :: (runes text).flatMap escapeRune ++ [34]

def member (key : String) (value : Bytes) : Bytes :=
  utf8 "    \"" ++ utf8 key ++ utf8 "\": " ++ value

def object (t : Token) : Bytes :=
  let members := [member "type" (string t.kind.name)] ++
    (if t.literal.isEmpty then [] else [member "literal" (string t.literal)]) ++
    [member "line" (intText t.pos.line), member "column" (intText t.pos.column),
      member "offset" (intText t.pos.offset)]
  utf8 "  \x7b\n" ++ joinWith (utf8 ",\n") members ++ utf8 "\n  \x7d"

def render (tokens : List Token) : Bytes :=
  if tokens.isEmpty then utf8 "[]\n"
  else utf8 "[\n" ++ joinWith (utf8 ",\n") (tokens.map object) ++ utf8 "\n]\n"

end StatementLang.JsonDump
