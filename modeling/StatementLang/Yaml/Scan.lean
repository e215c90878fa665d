import StatementLang.Yaml.Directive

/-!
# Scanning YAML

The scanner turns the characters of a document into tokens. What a colon means is only known when
it is reached, so a token that might be a key is remembered with its number, and the tokens that
open a mapping are put in front of it later. Tokens are handed on only when two more are waiting,
and errors count from the moment at which the scanner meets them.
-/

namespace StatementLang.Yaml

/-- A token that a colon would turn into a key. -/
structure KeyCandidate where
  possible : Bool
  required : Bool
  number : Nat
  mark : Mark
  deriving Repr, Inhabited

/-- `problem` says why there is no text behind `rest`, `size` is the length of the whole text and
`marked` as in its source. `indent` is the column of the innermost block, `indents` those around it.
`candidate` belongs to the innermost of `depth` levels of brackets, `outer` to those around it.
`watched` gives for the numbers of tokens that may become keys the level that decides on them.
`delivered` counts the tokens handed on and `queue` holds those that wait. -/
structure Scanner where
  rest : List Char
  mark : Mark
  problem : Option String
  size : Nat
  marked : Nat
  indent : Int
  indents : List Int
  depth : Nat
  candidate : KeyCandidate
  outer : List KeyCandidate
  watched : List (Nat × Nat)
  keyAllowed : Bool
  queue : List Token
  delivered : Nat
  deriving Inhabited

abbrev Scanned := Except ScanFailure Scanner

namespace Scanner

def start (source : Source) : Scanner where
  rest := source.chars
  mark := ⟨0, 0, 0⟩
  problem := source.problem
  size := source.chars.length + 1
  marked := source.marked
  indent := -1
  indents := []
  depth := 0
  candidate := ⟨false, false, 0, ⟨0, 0, 0⟩⟩
  outer := []
  watched := []
  keyAllowed := true
  queue := [⟨.streamStart, ⟨0, 0, 0⟩⟩]
  delivered := 0

def inFlow (s : Scanner) : Bool := 0 < s.depth

def fail (s : Scanner) (context : Mark) (problem : String) : Scanned :=
  .error ⟨context, problem, s.mark⟩

/-- The text must go on for `n` characters, or end without a problem. -/
def demand (n : Nat) (s : Scanner) : Scanned :=
  match s.problem with
  | some p => if (s.rest.drop (n - 1)).isEmpty then .error (.unreadable p) else .ok s
  | none => .ok s

def emit (kind : TokenKind) (mark : Mark) (s : Scanner) : Scanner :=
  { s with queue := s.queue ++ [⟨kind, mark⟩] }

/-- The number of the token that is emitted next. -/
def nextNumber (s : Scanner) : Nat := s.delivered + s.queue.length

/-- Puts a token in front of the one with the given number; if that has been handed on, behind all
others. -/
def emitBefore (number : Nat) (t : Token) (s : Scanner) : Scanner :=
  if number < s.delivered then { s with queue := s.queue ++ [t] }
  else
    let i := number - s.delivered
    { s with queue := s.queue.take i ++ t :: s.queue.drop i }

def skip (n : Nat) (s : Scanner) : Scanner :=
  { s with rest := s.rest.drop n, mark := (s.rest.take n).foldl Mark.after s.mark }

def unwatch (number : Nat) (s : Scanner) : Scanner :=
  { s with watched := s.watched.filter (·.1 ≠ number) }

def missingColon : String := "could not find expected ':'"

def clearCandidate (s : Scanner) : Scanner :=
  if s.candidate.possible then
    { s with candidate := { s.candidate with possible := false } }.unwatch s.candidate.number
  else s

/-- Gives up the current candidate; one that had to be a key is an error. -/
def dropCandidate (s : Scanner) : Scanned :=
  if s.candidate.possible && s.candidate.required then s.fail s.candidate.mark missingColon
  else .ok s.clearCandidate

/-- A token that starts here may be a key. -/
def saveCandidate (s : Scanner) : Scanned :=
  if s.keyAllowed then
    match s.dropCandidate with
    | .error e => .error e
    | .ok s =>
      let k : KeyCandidate := ⟨true, !s.inFlow && s.indent = s.mark.column, s.nextNumber, s.mark⟩
      .ok { s with candidate := k, watched := (k.number, s.depth) :: s.watched }
  else .ok s

/-- Opens a level of brackets. Until a candidate is met on it, its place is taken by the bracket. -/
def openLevel (s : Scanner) : Scanner :=
  { s with
    depth := s.depth + 1
    outer := s.candidate :: s.outer
    candidate := ⟨false, false, s.nextNumber, s.mark⟩ }

/-- Closes a level of brackets, and no longer watches what stands for its candidate. -/
def closeLevel (s : Scanner) : Scanner :=
  match s.outer with
  | [] => s
  | k :: outer =>
    { s with depth := s.depth - 1, candidate := k, outer }.unwatch s.candidate.number

/-- The candidate of a level, counted from the outermost one. -/
def candidateAt (s : Scanner) (level : Nat) : KeyCandidate :=
  if level = s.depth then s.candidate else s.outer.getD (s.depth - 1 - level) s.candidate

/-- A key ends on its line and within 1024 characters. -/
def isStale (s : Scanner) (k : KeyCandidate) : Bool :=
  k.mark.line < s.mark.line || k.mark.index + 1024 < s.mark.index

/-- Whether a candidate can still be a key; one that had to be is an error if it cannot. -/
def checkCandidate (s : Scanner) (k : KeyCandidate) : Except ScanFailure Bool :=
  if !k.possible then .ok false
  else if s.isStale k then
    if k.required then .error ⟨k.mark, missingColon, s.mark⟩ else .ok false
  else .ok true

/-- Neither blocks nor brackets are nested deeper than this. -/
def maxDepth : Nat := 10000

def tooDeep : String := "exceeded max depth of 10000"

/-- Opens a block at a column beyond the current one. -/
def rollIndent (column : Int) (before : Option Nat) (kind : TokenKind) (mark : Mark)
    (s : Scanner) : Scanned :=
  if s.inFlow || column ≤ s.indent then .ok s
  else if s.indents.length ≥ maxDepth then s.fail s.candidate.mark tooDeep
  else
    let s := { s with indents := s.indent :: s.indents, indent := column }
    match before with
    | some n => .ok (s.emitBefore n ⟨kind, mark⟩)
    | none => .ok (s.emit kind mark)

def unrollFrom (column : Int) (mark : Mark) : List Int → Int → List Token → List Int × Int × List Token
  | [], indent, closed => ([], indent, closed)
  | i :: is, indent, closed =>
    if column < indent then unrollFrom column mark is i (⟨.blockEnd, mark⟩ :: closed)
    else (i :: is, indent, closed)

def unrollIndent (column : Int) (mark : Mark) (s : Scanner) : Scanner :=
  if s.inFlow then s
  else
    let (indents, indent, closed) := unrollFrom column mark s.indents s.indent []
    { s with indents, indent, queue := s.queue ++ closed }

def lineEnd (m : Mark) (cs : List Char) : Mark × List Char :=
  let (text, rest) := cs.span (fun c => !isBreak c)
  (text.foldl Mark.after m, rest)

/-- How far a comment may be from the one before it to be taken together with it. -/
def commentReach : Nat := 511

/-- The number of characters between the end of a comment and the next one, if there is only white
space and nothing but newlines ends the lines. -/
def nextComment? : List Char → Option Nat
  | '\n' :: rest =>
    let gap := (rest.take commentReach).takeWhile fun c => isBlank c || c == '\n'
    match (rest.take commentReach).drop gap.length with
    | '#' :: _ => some (gap.length + 1)
    | _ => none
  | _ => none

/-- Passes a comment and those that follow it closely. -/
def passComments : (fuel : Nat) → Mark → List Char → Mark × List Char
  | 0, m, cs => (m, cs)
  | fuel + 1, m, cs =>
    let (m, cs) := lineEnd m cs
    match nextComment? cs with
    | some n => passComments fuel ((cs.take n).foldl Mark.after m) (cs.drop n)
    | none => (m, cs)

/-- Passes white space, comments and line breaks. Behind a line break a key may start; before one
may start, a tab is no white space. -/
def passFrom (flow : Bool) (marked : Nat) :
    (fuel : Nat) → Bool → Mark → List Char → Bool × Mark × List Char
  | 0, allowed, m, cs => (allowed, m, cs)
  | fuel + 1, allowed, m, cs =>
    let (m, cs) : Mark × List Char :=
      if m.column = 0 ∧ m.index < marked then (⟨m.index + 1, m.line, 1⟩, cs.drop 1) else (m, cs)
    let (blanks, cs) := cs.span fun c => c == ' ' || (c == '\t' && (flow || !allowed))
    let m := blanks.foldl Mark.after m
    let (m, cs) := if cs.head? = some '#' then passComments (fuel + 1) m cs else (m, cs)
    match cs with
    | c :: rest =>
      if isBreak c then passFrom flow marked fuel (allowed || !flow) (m.after c) rest
      else (allowed, m, c :: rest)
    | [] => (allowed, m, [])

def pass (s : Scanner) : Scanner :=
  let (keyAllowed, mark, rest) := passFrom s.inFlow s.marked s.size s.keyAllowed s.mark s.rest
  { s with keyAllowed, mark, rest }

/-- Passes a comment behind a token on its line, with the blanks in front of it. -/
def passRemark (s : Scanner) : Scanner :=
  let (blanks, rest) := s.rest.span isBlank
  if blanks.length ≤ commentReach ∧ rest.head? = some '#' then
    let (mark, rest) := lineEnd (blanks.foldl Mark.after s.mark) rest
    { s with mark, rest }
  else s

/-- The end of the text closes all blocks; it stands on a line of its own. -/
def fetchEnd (s : Scanner) : Scanned :=
  let s := if s.mark.column ≠ 0 then { s with mark := ⟨s.mark.index, s.mark.line + 1, 0⟩ } else s
  match (s.unrollIndent (-1) s.mark).dropCandidate with
  | .error e => .error e
  | .ok s => .ok ({ s with keyAllowed := false }.emit .streamEnd s.mark)

/-- A directive takes its whole line, and no key may start behind it. -/
def fetchDirective (s : Scanner) : Scanned :=
  match (s.unrollIndent (-1) s.mark).dropCandidate with
  | .error e => .error e
  | .ok s =>
    let line := s.rest.takeWhile (fun c => !isBreak c)
    match Directive.read line.tail with
    | .error problem => s.fail s.mark problem
    | .ok kind => .ok (({ s with keyAllowed := false }.emit kind s.mark).skip (line.length + 1))

def fetchMarker (kind : TokenKind) (s : Scanner) : Scanned :=
  match (s.unrollIndent (-1) s.mark).dropCandidate with
  | .error e => .error e
  | .ok s => .ok (({ s with keyAllowed := false }.emit kind s.mark).skip 3)

def fetchOpening (kind : TokenKind) (s : Scanner) : Scanned :=
  match s.saveCandidate with
  | .error e => .error e
  | .ok s =>
    if s.depth ≥ maxDepth then s.fail s.mark tooDeep
    else .ok (({ s.openLevel with keyAllowed := true }.emit kind s.mark).skip 1)

/-- A closing bracket outside brackets is passed on to the parser. -/
def fetchClosing (kind : TokenKind) (s : Scanner) : Scanned :=
  match s.dropCandidate with
  | .error e => .error e
  | .ok s => .ok (({ s.closeLevel with keyAllowed := false }.emit kind s.mark).skip 1)

def fetchEntry (s : Scanner) : Scanned :=
  match s.dropCandidate with
  | .error e => .error e
  | .ok s => .ok (({ s with keyAllowed := true }.emit .flowEntry s.mark).skip 1)

def fetchDash (s : Scanner) : Scanned :=
  if !s.inFlow && !s.keyAllowed then
    s.fail s.mark "block sequence entries are not allowed in this context"
  else do
    let s ← s.rollIndent s.mark.column none .blockSequenceStart s.mark
    let s ← s.dropCandidate
    return ({ s with keyAllowed := true }.emit .blockEntry s.mark).skip 1

def fetchKey (s : Scanner) : Scanned :=
  if !s.inFlow && !s.keyAllowed then s.fail s.mark "mapping keys are not allowed in this context"
  else do
    let s ← s.rollIndent s.mark.column none .blockMappingStart s.mark
    let s ← s.dropCandidate
    return ({ s with keyAllowed := !s.inFlow }.emit .key s.mark).skip 1

/-- A colon turns the current candidate into a key, or stands behind a key that was announced. -/
def fetchValue (s : Scanner) : Scanned := do
  let k := s.candidate
  if ← s.checkCandidate k then
    let s := s.emitBefore k.number ⟨.key, k.mark⟩
    let s ← s.rollIndent k.mark.column (some k.number) .blockMappingStart k.mark
    return ({ s.clearCandidate with keyAllowed := false }.emit .value s.mark).skip 1
  else if !s.inFlow && !s.keyAllowed then
    s.fail s.mark "mapping values are not allowed in this context"
  else
    let s ← s.rollIndent s.mark.column none .blockMappingStart s.mark
    let s := { s with candidate := { k with possible := false } }
    return ({ s with keyAllowed := !s.inFlow }.emit .value s.mark).skip 1

/-- The characters that may stand behind the name of an anchor. -/
def endsName : List Char → Bool
  | [] => true
  | c :: _ => isBlank c || isBreak c || "?:,]\x7d%@\x60".toList.contains c

def fetchName (kind : Bytes → TokenKind) (s : Scanner) : Scanned :=
  match s.saveCandidate with
  | .error e => .error e
  | .ok s =>
    let mark := s.mark
    let name := (s.rest.drop 1).takeWhile isWordChar
    let after := s.skip (1 + name.length)
    if name.isEmpty || !endsName after.rest then
      after.fail mark "did not find expected alphabetic or numeric character"
    else .ok ({ after with keyAllowed := false }.emit (kind (textOf name.reverse)) mark)

/-- Handle and suffix of a tag, given without its exclamation mark, and the text behind it: `<uri>`,
a word that ends with an exclamation mark in front of a suffix, or a suffix alone. -/
def tagParts (cs : List Char) : Except String (Bytes × Bytes × List Char) :=
  match cs with
  | '<' :: cs => do
    let (suffix, rest) ← uri cs
    if suffix.isEmpty then .error "did not find expected tag URI"
    else match rest with
      | '>' :: rest => return ([], suffix, rest)
      | _ => .error "did not find the expected '>'"
  | cs =>
    let (word, rest) := cs.span isWordChar
    match rest with
    | '!' :: rest => do
      let (suffix, rest) ← uri rest
      if suffix.isEmpty then .error "did not find expected tag URI"
      else return (textOf ('!' :: word ++ ['!']).reverse, suffix, rest)
    | _ => do
      let (suffix, rest) ← uri cs
      return if suffix.isEmpty then ([], utf8 "!", rest) else (utf8 "!", suffix, rest)

def fetchTag (s : Scanner) : Scanned :=
  match s.saveCandidate with
  | .error e => .error e
  | .ok s =>
    match tagParts (s.rest.drop 1) with
    | .error problem => s.fail s.mark problem
    | .ok (handle, suffix, rest) =>
      if !blankNext rest then s.fail s.mark "did not find expected whitespace or line break"
      else
        let after := s.skip (s.rest.length - rest.length)
        .ok ({ after with keyAllowed := false }.emit (.tag handle suffix) s.mark)

def emitScalar (style : ScalarStyle) (mark : Mark) (keyAllowed : Bool) (s : Scanner)
    (r : ScalarRead) : Scanner :=
  { s with rest := r.rest, mark := r.mark, keyAllowed }.emit (.scalar style r.text) mark

def fetchBlock (literal : Bool) (s : Scanner) : Scanned :=
  match s.dropCandidate with
  | .error e => .error e
  | .ok s =>
    match blockScalar s.mark literal s.indent (s.skip 1).mark (s.rest.drop 1) with
    | .error e => .error e
    | .ok r => .ok (s.emitScalar .quoted s.mark true r)

def fetchQuoted (read : Mark → Draft → Mark → List Char → Except ScanFailure ScalarRead)
    (s : Scanner) : Scanned :=
  match s.saveCandidate with
  | .error e => .error e
  | .ok s =>
    match read s.mark .empty (s.skip 1).mark (s.rest.drop 1) with
    | .error e => .error e
    | .ok r => .ok (s.emitScalar .quoted s.mark false r)

def fetchPlain (s : Scanner) : Scanned :=
  match s.saveCandidate with
  | .error e => .error e
  | .ok s =>
    match plainFrom s.mark s.inFlow (s.indent + 1) false .empty s.mark s.rest with
    | .error e => .error e
    | .ok r => .ok (s.emitScalar .plain s.mark r.folding r)

def isIndicator (c : Char) : Bool := "-?:,[]\x7b\x7d#&*!|>'\"%@\x60".toList.contains c

/-- A plain scalar starts with no indicator, or with one that something follows directly. -/
def startsPlain (flow : Bool) (c : Char) (rest : List Char) : Bool :=
  (!isBlank c && !isIndicator c) ||
    (c == '-' && !(match rest with
      | d :: _ => isBlank d
      | [] => false)) ||
    (!flow && (c == '?' || c == ':') && !blankNext rest)

/-- Scans a token that starts with `c` and is no directive and no mark of a document. -/
def fetchToken (c : Char) (rest : List Char) (s : Scanner) : Scanned :=
  let flow := s.inFlow
  if c = '[' then s.fetchOpening .flowSequenceStart
  else if c = '\x7b' then s.fetchOpening .flowMappingStart
  else if c = ']' then s.fetchClosing .flowSequenceEnd
  else if c = '\x7d' then s.fetchClosing .flowMappingEnd
  else if c = ',' then s.fetchEntry
  else if c = '-' ∧ blankNext rest then s.fetchDash
  else if c = '?' ∧ (flow ∨ blankNext rest) then s.fetchKey
  else if c = ':' ∧ (flow ∨ blankNext rest) then s.fetchValue
  else if c = '*' then s.fetchName .alias
  else if c = '&' then s.fetchName .anchor
  else if c = '!' then s.fetchTag
  else if c = '|' ∧ !flow then s.fetchBlock true
  else if c = '>' ∧ !flow then s.fetchBlock false
  else if c = '\'' then s.fetchQuoted singleFrom
  else if c = '"' then s.fetchQuoted doubleFrom
  else if startsPlain flow c rest then s.fetchPlain
  else s.fail s.mark "found character that cannot start any token"

/-- Passes what is remarked on the last token. A dash has no remark, nor has a scalar that goes on to
another line. -/
def passLastRemark (s : Scanner) : Scanner :=
  match s.queue.getLast? with
  | some ⟨.blockEntry, _⟩ => s
  | some ⟨.scalar _ _, _⟩ => if s.keyAllowed then s else s.passRemark
  | _ => s.passRemark

/-- Scans the next token. To tell what it is, up to four characters are needed. -/
def fetch (s : Scanner) : Scanned := do
  let passed := s.pass
  let s ← (passed.unrollIndent passed.mark.column s.mark).demand 4
  let s ← match s.rest with
    | [] => s.fetchEnd
    | c :: rest =>
      if s.mark.column = 0 ∧ c = '%' then s.fetchDirective
      else if s.mark.column = 0 ∧ isDocumentMarker (c :: rest) then
        s.fetchMarker (if c = '-' then .documentStart else .documentEnd)
      else (s.fetchToken c rest).map passLastRemark
  s.demand 1

/-- Whether the first waiting token can be handed on: two more wait behind it, and no colon can
still turn it into a key. -/
def ready (s : Scanner) : Except ScanFailure Bool :=
  match s.queue with
  | _ :: _ :: _ :: _ =>
    match s.watched.lookup s.delivered with
    | none => .ok true
    | some level => (s.checkCandidate (s.candidateAt level)).map (!·)
  | _ => .ok false

def deliver (queue : List Token) (s : Scanner) : Scanner :=
  { s with queue, delivered := s.delivered + 1, watched := s.watched.filter (s.delivered < ·.1) }

structure Stream where
  tokens : List Token
  failure : Option ScanFailure

/-- Scans to the end of the text; `fuel` bounds the number of steps. -/
def runFrom : (fuel : Nat) → List Token → Scanner → Stream
  | 0, done, _ => ⟨done.reverse, none⟩
  | fuel + 1, done, s =>
    match s.ready with
    | .error e => ⟨done.reverse, some e⟩
    | .ok false =>
      match s.fetch with
      | .error e => ⟨done.reverse, some e⟩
      | .ok s => runFrom fuel done s
    | .ok true =>
      match s.queue with
      | [] => ⟨done.reverse, none⟩
      | t :: queue =>
        if t.kind = .streamEnd then ⟨(t :: done).reverse, none⟩
        else runFrom fuel (t :: done) (s.deliver queue)

/-- Each character leads to at most one fetch, and each fetch to few tokens. -/
def run (source : Source) : Stream :=
  runFrom (8 * source.chars.length + 64) [] (start source)

end Scanner

end StatementLang.Yaml
