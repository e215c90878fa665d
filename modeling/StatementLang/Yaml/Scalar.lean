import StatementLang.Yaml.Token

/-!
# Scanning scalars

Plain, quoted and block scalars are read one character at a time. Blanks are kept inside a line;
a line break becomes a space, and each further break stays a break.
-/

namespace StatementLang.Yaml

/-- A failure of the scanner: what it was at, and where it noticed. -/
structure ScanFailure where
  context : Mark
  problem : String
  found : Mark
  deriving Repr, Inhabited

/-- The text cannot be read any further. -/
def ScanFailure.unreadable (problem : String) : ScanFailure := ⟨⟨0, 0, 0⟩, problem, ⟨0, 0, 0⟩⟩

/-- The line that is shown: that of the context, or else that of the problem; the first line is
not shown. -/
def ScanFailure.error (f : ScanFailure) : Error :=
  let l := if f.context.line ≠ 0 then f.context.line + 1
    else if f.found.line ≠ 0 then f.found.line + 1 else 0
  .structural l (utf8 f.problem)

/-- A scalar in progress; the lists are reversed. `blanks` were passed since the last visible
character. Once a line has ended, `folding` is set: `first` is the break that ended it, unless it
was escaped, and `breaks` are the further ones. -/
structure Draft where
  text : List Char
  blanks : List Char
  folding : Bool
  first : Option Char
  breaks : List Char
  deriving Repr, Inhabited

namespace Draft

def empty : Draft := ⟨[], [], false, none, []⟩

def ofText (text : List Char) : Draft := ⟨text, [], false, none, []⟩

/-- Settles the white space behind the text: a single newline becomes a space, and of several the
first is dropped. -/
def settle (d : Draft) : Draft :=
  if d.folding then
    match d.first, d.breaks with
    | some '\n', [] => ofText (' ' :: d.text)
    | some '\n', more => ofText (more ++ d.text)
    | some c, more => ofText (more ++ c :: d.text)
    | none, more => ofText (more ++ d.text)
  else ofText (d.blanks ++ d.text)

def push (d : Draft) (c : Char) : Draft := { d with text := c :: d.text }

def blank (d : Draft) (c : Char) : Draft :=
  if d.folding then d else { d with blanks := c :: d.blanks }

def lineBreak (d : Draft) (c : Char) : Draft :=
  if d.folding then { d with breaks := keptBreak c :: d.breaks }
  else { d with blanks := [], folding := true, first := some (keptBreak c) }

/-- The line was ended by a break that does not count. -/
def escapedBreak (d : Draft) : Draft := { d.settle with folding := true }

end Draft

/-- `---` or `...` at the start of a line, followed by white space. -/
def isDocumentMarker : List Char → Bool
  | '-' :: '-' :: '-' :: rest => blankNext rest
  | '.' :: '.' :: '.' :: rest => blankNext rest
  | _ => false

structure ScalarRead where
  text : Bytes
  folding : Bool
  mark : Mark
  rest : List Char
  deriving Inhabited

/-- The characters that end a plain scalar inside brackets. -/
def endsFlow (c : Char) : Bool :=
  c == ',' || c == '?' || c == '[' || c == ']' || c == '\x7b' || c == '\x7d'

/-- Reads a plain scalar. `inFlow` says whether it stands inside brackets, `indent` is the least
column of its further lines, `fresh` says whether white space was just passed. -/
def plainFrom (start : Mark) (inFlow : Bool) (indent : Int) (fresh : Bool) (d : Draft) (m : Mark) :
    List Char → Except ScanFailure ScalarRead
  | [] => .ok ⟨textOf d.text, d.folding, m, []⟩
  | c :: rest =>
    if isBreak c then plainFrom start inFlow indent true (d.lineBreak c) (m.after c) rest
    else if isBlank c then
      if d.folding && (m.column : Int) < indent && c == '\t' then
        .error ⟨start, "found a tab character that violates indentation", m⟩
      else plainFrom start inFlow indent true (d.blank c) (m.after c) rest
    else if (fresh && ((!inFlow && (m.column : Int) < indent) || c == '#' ||
        (m.column == 0 && isDocumentMarker (c :: rest)))) ||
        (c == ':' && blankNext rest) || (inFlow && endsFlow c) then
      .ok ⟨textOf d.text, d.folding, m, c :: rest⟩
    else plainFrom start inFlow indent false (d.settle.push c) (m.after c) rest

def singleFrom (start : Mark) (d : Draft) (m : Mark) :
    List Char → Except ScanFailure ScalarRead
  | [] => .error ⟨start, "found unexpected end of stream", m⟩
  | '\'' :: '\'' :: rest =>
    singleFrom start (d.settle.push '\'') ((m.after '\'').after '\'') rest
  | c :: rest =>
    if m.column == 0 && isDocumentMarker (c :: rest) then
      .error ⟨start, "found unexpected document indicator", m⟩
    else if c == '\'' then .ok ⟨textOf d.settle.text, false, m.after c, rest⟩
    else if isBreak c then singleFrom start (d.lineBreak c) (m.after c) rest
    else if isBlank c then singleFrom start (d.blank c) (m.after c) rest
    else singleFrom start (d.settle.push c) (m.after c) rest

def simpleEscape? : Char → Option Char
  | '0' => some '\x00'
  | 'a' => some '\x07'
  | 'b' => some '\x08'
  | 't' => some '\t'
  | '\t' => some '\t'
  | 'n' => some '\n'
  | 'v' => some '\x0b'
  | 'f' => some '\x0c'
  | 'r' => some '\r'
  | 'e' => some '\x1b'
  | ' ' => some ' '
  | '"' => some '"'
  | '\'' => some '\''
  | '\\' => some '\\'
  | 'N' => some '\u0085'
  | '_' => some '\u00a0'
  | 'L' => some '\u2028'
  | 'P' => some '\u2029'
  | _ => none

def codeWidth? : Char → Option Nat
  | 'x' => some 2
  | 'u' => some 4
  | 'U' => some 8
  | _ => none

def hexValue? (c : Char) : Option Nat :=
  let n := c.toNat
  if 48 ≤ n ∧ n ≤ 57 then some (n - 48)
  else if 97 ≤ n ∧ n ≤ 102 then some (n - 87)
  else if 65 ≤ n ∧ n ≤ 70 then some (n - 55)
  else none

def hexCode? (width : Nat) (cs : List Char) : Option Nat :=
  let ds := (cs.take width).filterMap hexValue?
  if ds.length = width then some (ds.foldl (fun v d => v * 16 + d) 0) else none

def doubleFrom (start : Mark) (d : Draft) (m : Mark) :
    List Char → Except ScanFailure ScalarRead
  | [] => .error ⟨start, "found unexpected end of stream", m⟩
  | c :: rest =>
    if m.column == 0 && isDocumentMarker (c :: rest) then
      .error ⟨start, "found unexpected document indicator", m⟩
    else if c == '"' then .ok ⟨textOf d.settle.text, false, m.after c, rest⟩
    else if isBreak c then doubleFrom start (d.lineBreak c) (m.after c) rest
    else if isBlank c then doubleFrom start (d.blank c) (m.after c) rest
    else if c == '\\' then
      match _h : rest with
      | [] => .error ⟨start, "found unknown escape character", m⟩
      | e :: more =>
        if isBreak e then
          doubleFrom start d.escapedBreak ((m.after c).after e) more
        else match simpleEscape? e, codeWidth? e with
          | some x, _ => doubleFrom start (d.settle.push x) ((m.after c).after e) more
          | none, none => .error ⟨start, "found unknown escape character", m⟩
          | none, some width =>
            let m := (m.after c).after e
            match hexCode? width more with
            | none => .error ⟨start, "did not find expected hexdecimal number", m⟩
            | some v =>
              if (0xD800 ≤ v ∧ v ≤ 0xDFFF) ∨ v > 0x10FFFF then
                .error ⟨start, "found invalid Unicode character escape code", m⟩
              else
                doubleFrom start (d.settle.push (Char.ofNat v))
                  ⟨m.index + width, m.line, m.column + width⟩ (more.drop width)
    else doubleFrom start (d.settle.push c) (m.after c) rest
termination_by cs => cs.length
decreasing_by
  all_goals subst_vars
  all_goals simp only [List.length_cons, List.length_drop]
  all_goals omega

end StatementLang.Yaml
