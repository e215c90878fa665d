import StatementLang.Yaml.Scan

/-!
# YAML nodes

The first document of a stream as a tree. Every node knows its line, and an alias knows the node
that it names.
-/

namespace StatementLang.Yaml

/-- `tag` is empty if none was given or if it was the exclamation mark alone. A `cycle` is an alias
inside the node that it names, which is a mapping or a sequence. -/
inductive Node where
  | scalar (line : Nat) (tag : Bytes) (style : ScalarStyle) (text : Bytes)
  | sequence (line : Nat) (tag : Bytes) (items : List Node)
  | mapping (line : Nat) (tag : Bytes) (entries : List (Node × Node))
  | alias (line : Nat) (name : Bytes) (target : Node)
  | cycle (line : Nat) (name : Bytes) (mapping : Bool)
  deriving Inhabited

/-- What an anchor names: a node, or the collection that is being read. -/
inductive Anchored where
  | done (n : Node)
  | pending (mapping : Bool)
  deriving Inhabited

/-- The tokens still to be parsed, the error behind them, what the tag handles stand for, and the
anchors so far, newest first. -/
structure Parser where
  tokens : List Token
  failure : Option ScanFailure
  handles : List (Bytes × Bytes)
  anchors : List (Bytes × Anchored)

/-- Anchor, tag and place of a node before its content. -/
structure Properties where
  anchor : Option Bytes
  tag : Option Bytes
  mark : Mark
  deriving Inhabited

/-- A node with properties needs no content. -/
def Properties.any (p : Properties) : Bool := p.anchor.isSome || p.tag.isSome

/-- The tag of the node, of which the exclamation mark says nothing. -/
def Properties.nodeTag (p : Properties) : Bytes :=
  match p.tag with
  | some tag => if tag = utf8 "!" then [] else tag
  | none => []

namespace Parser

/-- The next token; a stream that broke off reports its error. -/
def peek (p : Parser) : Except Error Token :=
  match p.tokens, p.failure with
  | t :: _, _ => .ok t
  | [], some f => .error f.error
  | [], none => .ok ⟨.streamEnd, ⟨0, 0, 0⟩⟩

def next (p : Parser) : Parser := { p with tokens := p.tokens.tail }

/-- The line that is shown is that of the context, or else that of the problem. -/
def problemAt (context found : Mark) (problem : String) : Error :=
  .structural (if context.line ≠ 0 then context.line else found.line) (utf8 problem)

def lineOf (m : Mark) : Nat := m.line + 1

def emptyNode (m : Mark) : Node := .scalar (lineOf m) [] .plain []

/-- An anchor is known from the start of its node on; `kind` is that of the node's first token. -/
def announce (name : Option Bytes) (kind : TokenKind) (p : Parser) : Parser :=
  match name with
  | some a =>
    let mapping := kind = .flowMappingStart ∨ kind = .blockMappingStart
    { p with anchors := (a, .pending mapping) :: p.anchors }
  | none => p

/-- Gives the newest anchor of this name without a node its node. -/
def fillAnchor (name : Bytes) (n : Node) : List (Bytes × Anchored) → List (Bytes × Anchored)
  | [] => []
  | (a, .pending m) :: rest =>
    if a = name then (a, .done n) :: rest else (a, .pending m) :: fillAnchor name n rest
  | (a, .done target) :: rest => (a, .done target) :: fillAnchor name n rest

def define (name : Option Bytes) (n : Node) (p : Parser) : Parser :=
  match name with
  | some a => { p with anchors := fillAnchor a n p.anchors }
  | none => p

def standardSpace : Bytes := utf8 "tag:yaml.org,2002:"

def usualHandles : List (Bytes × Bytes) := [(utf8 "!", utf8 "!"), (utf8 "!!", standardSpace)]

/-- Standard tags are written with two exclamation marks. -/
def shortTag (tag : Bytes) : Bytes :=
  if standardSpace.isPrefixOf tag then utf8 "!!" ++ tag.drop standardSpace.length else tag

/-- The short form of a tag; an unknown handle has none. -/
def tagName (handles : List (Bytes × Bytes)) (handle suffix : Bytes) : Option Bytes :=
  if handle.isEmpty then some (shortTag suffix)
  else (handles.lookup handle).map fun expansion => shortTag (expansion ++ suffix)

structure WrittenTag where
  handle : Bytes
  suffix : Bytes
  mark : Mark

/-- The anchor and the tag in front of a node, each at most once and in either order. -/
def writtenProperties (p : Parser) : Except Error (Option Bytes × Option WrittenTag × Parser) := do
  let t ← p.peek
  match t.kind with
  | .anchor a =>
    let q := p.next
    let u ← q.peek
    match u.kind with
    | .tag handle suffix => return (some a, some ⟨handle, suffix, u.mark⟩, q.next)
    | _ => return (some a, none, q)
  | .tag handle suffix =>
    let q := p.next
    let u ← q.peek
    match u.kind with
    | .anchor a => return (some a, some ⟨handle, suffix, t.mark⟩, q.next)
    | _ => return (none, some ⟨handle, suffix, t.mark⟩, q)
  | _ => return (none, none, p)

/-- The properties of a node that starts at `start`. A handle is only looked up once the token behind
the properties has been seen. -/
def properties (start : Mark) (p : Parser) : Except Error (Properties × Parser) := do
  let (anchor, written, p) ← p.writtenProperties
  let _ ← p.peek
  match written with
  | none => return (⟨anchor, none, start⟩, p)
  | some w =>
    match tagName p.handles w.handle w.suffix with
    | some tag => return (⟨anchor, some tag, start⟩, p)
    | none => .error (problemAt start w.mark "found undefined tag handle")

/-- Where a node stands: `block` allows block collections, `indentless` a sequence that is not
indented below its key. -/
structure Place where
  block : Bool
  indentless : Bool

/-- A token that starts no node. -/
def noContent (props : Properties) (t : Token) : Except Error (Node × Parser) :=
  .error (problemAt props.mark t.mark "did not find expected node content")

mutual

def node (place : Place) : (fuel : Nat) → Parser → Except Error (Node × Parser)
  | 0, p => .ok (emptyNode ⟨0, 0, 0⟩, p)
  | fuel + 1, p => do
    let first ← p.peek
    match first.kind with
    | .alias name =>
      match p.anchors.lookup name with
      | some (.done n) => return (.alias (lineOf first.mark) name n, p.next)
      | some (.pending mapping) => return (.cycle (lineOf first.mark) name mapping, p.next)
      | none =>
        .error (.structural 0 (utf8 "unknown anchor '" ++ name ++ utf8 "' referenced"))
    | _ =>
      let (props, p) ← p.properties first.mark
      let t ← p.peek
      let here := lineOf props.mark
      let tag := props.nodeTag
      let p := p.announce props.anchor t.kind
      let finish (n : Node) (p : Parser) : Except Error (Node × Parser) :=
        .ok (n, p.define props.anchor n)
      let absent : Except Error (Node × Parser) :=
        if props.any then finish (.scalar here tag .plain []) p else noContent props t
      match t.kind with
      | .scalar style text => finish (.scalar here tag style text) p.next
      | .flowSequenceStart =>
        let (items, p) ← flowItems t.mark true fuel [] p.next
        finish (.sequence here tag items) p
      | .flowMappingStart =>
        let (entries, p) ← flowEntries t.mark true fuel [] p.next
        finish (.mapping here tag entries) p
      | .blockEntry =>
        if place.indentless then
          let (items, p) ← indentlessItems fuel [] p
          finish (.sequence here tag items) p
        else absent
      | .blockSequenceStart =>
        if place.block then
          let (items, p) ← blockItems t.mark fuel [] p.next
          finish (.sequence here tag items) p
        else absent
      | .blockMappingStart =>
        if place.block then
          let (entries, p) ← blockEntries t.mark fuel [] p.next
          finish (.mapping here tag entries) p
        else absent
      | _ => absent

def blockItems (start : Mark) : (fuel : Nat) → List Node → Parser → Except Error (List Node × Parser)
  | 0, done, p => .ok (done.reverse, p)
  | fuel + 1, done, p => do
    let t ← p.peek
    match t.kind with
    | .blockEntry =>
      let p := p.next
      let u ← p.peek
      match u.kind with
      | .blockEntry | .blockEnd => blockItems start fuel (emptyNode t.mark :: done) p
      | _ =>
        let (n, p) ← node ⟨true, false⟩ fuel p
        blockItems start fuel (n :: done) p
    | .blockEnd => return (done.reverse, p.next)
    | _ => .error (problemAt start t.mark "did not find expected '-' indicator")

/-- The items of a sequence that is not indented below its key. -/
def indentlessItems : (fuel : Nat) → List Node → Parser → Except Error (List Node × Parser)
  | 0, done, p => .ok (done.reverse, p)
  | fuel + 1, done, p => do
    let t ← p.peek
    match t.kind with
    | .blockEntry =>
      let p := p.next
      let u ← p.peek
      match u.kind with
      | .blockEntry | .key | .value | .blockEnd =>
        indentlessItems fuel (emptyNode t.mark :: done) p
      | _ =>
        let (n, p) ← node ⟨true, false⟩ fuel p
        indentlessItems fuel (n :: done) p
    | _ => return (done.reverse, p)

def blockEntries (start : Mark) :
    (fuel : Nat) → List (Node × Node) → Parser → Except Error (List (Node × Node) × Parser)
  | 0, done, p => .ok (done.reverse, p)
  | fuel + 1, done, p => do
    let t ← p.peek
    match t.kind with
    | .key =>
      let p := p.next
      let u ← p.peek
      let (k, p) ← match u.kind with
        | .key | .value | .blockEnd => .ok (emptyNode t.mark, p)
        | _ => node ⟨true, true⟩ fuel p
      let (v, p) ← blockValue fuel p
      blockEntries start fuel ((k, v) :: done) p
    | .blockEnd => return (done.reverse, p.next)
    | _ => .error (problemAt start t.mark "did not find expected key")

def blockValue : (fuel : Nat) → Parser → Except Error (Node × Parser)
  | 0, p => .ok (emptyNode ⟨0, 0, 0⟩, p)
  | fuel + 1, p => do
    let t ← p.peek
    match t.kind with
    | .value =>
      let p := p.next
      let u ← p.peek
      match u.kind with
      | .key | .value | .blockEnd => return (emptyNode t.mark, p)
      | _ => node ⟨true, true⟩ fuel p
    | _ => return (emptyNode t.mark, p)

/-- The items of a flow sequence that started at `start`; a key makes an item a mapping. What stands in
the place of an announced key that is missing is passed. -/
def flowItems (start : Mark) (first : Bool) :
    (fuel : Nat) → List Node → Parser → Except Error (List Node × Parser)
  | 0, done, p => .ok (done.reverse, p)
  | fuel + 1, done, p => do
    let t ← p.peek
    if t.kind = .flowSequenceEnd then return (done.reverse, p.next)
    let p ← if first then .ok p
      else if t.kind = .flowEntry then .ok p.next
      else .error (problemAt start t.mark "did not find expected ',' or ']'")
    let t ← p.peek
    match t.kind with
    | .flowSequenceEnd => return (done.reverse, p.next)
    | .key =>
      let p := p.next
      let u ← p.peek
      let (k, p) ← match u.kind with
        | .value | .flowEntry | .flowSequenceEnd => .ok (emptyNode u.mark, p.next)
        | _ => node ⟨false, false⟩ fuel p
      let (v, p) ← flowValue .flowSequenceEnd fuel p
      flowItems start false fuel (.mapping (lineOf t.mark) [] [(k, v)] :: done) p
    | _ =>
      let (n, p) ← node ⟨false, false⟩ fuel p
      flowItems start false fuel (n :: done) p

def flowEntries (start : Mark) (first : Bool) :
    (fuel : Nat) → List (Node × Node) → Parser → Except Error (List (Node × Node) × Parser)
  | 0, done, p => .ok (done.reverse, p)
  | fuel + 1, done, p => do
    let t ← p.peek
    if t.kind = .flowMappingEnd then return (done.reverse, p.next)
    let p ← if first then .ok p
      else if t.kind = .flowEntry then .ok p.next
      else .error (problemAt start t.mark "did not find expected ',' or '\x7d'")
    let t ← p.peek
    match t.kind with
    | .flowMappingEnd => return (done.reverse, p.next)
    | .key =>
      let p := p.next
      let u ← p.peek
      let (k, p) ← match u.kind with
        | .value | .flowEntry | .flowMappingEnd => .ok (emptyNode u.mark, p)
        | _ => node ⟨false, false⟩ fuel p
      let (v, p) ← flowValue .flowMappingEnd fuel p
      flowEntries start false fuel ((k, v) :: done) p
    | _ =>
      let (k, p) ← node ⟨false, false⟩ fuel p
      let u ← p.peek
      flowEntries start false fuel ((k, emptyNode u.mark) :: done) p

/-- The value behind a key inside brackets that are closed by `closing`. -/
def flowValue (closing : TokenKind) : (fuel : Nat) → Parser → Except Error (Node × Parser)
  | 0, p => .ok (emptyNode ⟨0, 0, 0⟩, p)
  | fuel + 1, p => do
    let t ← p.peek
    if t.kind = .value then
      let p := p.next
      let u ← p.peek
      if u.kind = .flowEntry ∨ u.kind = closing then return (emptyNode u.mark, p)
      else node ⟨false, false⟩ fuel p
    else return (emptyNode t.mark, p)

end

/-- The handles that directives define, and the tokens behind the directives. Each handle and the
version is given at most once, and the only version is 1.1. -/
def directives (versioned : Bool) (handles : List (Bytes × Bytes)) :
    List Token → Except Error (List (Bytes × Bytes) × List Token)
  | [] => .ok (handles, [])
  | t :: rest =>
    let problem (text : String) : Except Error (List (Bytes × Bytes) × List Token) :=
      .error (problemAt ⟨0, 0, 0⟩ t.mark text)
    match t.kind with
    | .version major minor =>
      if versioned then problem "found duplicate %YAML directive"
      else if major ≠ 1 ∨ minor ≠ 1 then problem "found incompatible YAML document"
      else directives true handles rest
    | .tagHandle handle expansion =>
      if (handles.lookup handle).isSome then problem "found duplicate %TAG directive"
      else directives versioned ((handle, expansion) :: handles) rest
    | _ => .ok (handles, t :: rest)

/-- Directives and the start mark of a document, and whether there was any. -/
def documentStart (p : Parser) : Except Error (Bool × Parser) := do
  let t ← p.peek
  match t.kind with
  | .version .. | .tagHandle .. | .documentStart =>
    let (handles, tokens) ← directives false [] p.tokens
    let q : Parser := { p with tokens, handles := handles ++ usualHandles }
    let u ← q.peek
    if u.kind = .documentStart then return (true, q.next)
    else .error (problemAt ⟨0, 0, 0⟩ u.mark "did not find expected <document start>")
  | _ => return (false, p)

/-- The first document, if there is one. Directives must be followed by a document start, and only
behind one may the content be missing. -/
def document (fuel : Nat) (p : Parser) : Except Error (Option Node) := do
  let (explicit, p) ← documentStart { p with tokens := p.tokens.tail }
  let t ← p.peek
  let content : Except Error (Option Node) := do
    let (n, p) ← node ⟨true, false⟩ fuel p
    let _ ← p.peek
    return some n
  match t.kind with
  | .streamEnd => return if explicit then some (emptyNode t.mark) else none
  | .version .. | .tagHandle .. | .documentStart | .documentEnd =>
    if explicit then return some (emptyNode t.mark) else content
  | _ => content

end Parser

def parse (text : Bytes) : Except Error (Option Node) :=
  let s := Scanner.run (.ofBytes (if text.isEmpty then [newline] else text))
  Parser.document (4 * s.tokens.length + 16) ⟨s.tokens, s.failure, Parser.usualHandles, []⟩

end StatementLang.Yaml
