import StatementLang.Yaml.Scalar

/-!
# Scanning block scalars

A block scalar is the run of lines that are indented at least as far as its first one. A literal
scalar keeps its line breaks, a folded one joins neighbouring lines that start with no blank. The
breaks at the end are kept, cut to one or dropped.
-/

namespace StatementLang.Yaml

inductive Chomping where
  | clip
  | strip
  | keep
  deriving DecidableEq, Repr, Inhabited

/-- The header of a block scalar: its chomping, and its indentation relative to its parent if one
is given. -/
structure BlockHeader where
  chomping : Chomping
  increment : Nat
  deriving Repr, Inhabited

def chomping? : Char → Option Chomping
  | '+' => some .keep
  | '-' => some .strip
  | _ => none

def isDigitChar (c : Char) : Bool := '0' ≤ c && c ≤ '9'

/-- The header behind the indicator; the two parts may stand in either order. -/
def headerFrom (start m : Mark) (cs : List Char) :
    Except ScanFailure (BlockHeader × Mark × List Char) :=
  let zero (m : Mark) : Except ScanFailure (BlockHeader × Mark × List Char) :=
    .error ⟨start, "found an indentation indicator equal to 0", m⟩
  match cs with
  | [] => .ok (⟨.clip, 0⟩, m, [])
  | c :: rest =>
    match chomping? c with
    | some ch =>
      match rest with
      | d :: more =>
        if d == '0' then zero (m.after c)
        else if isDigitChar d then .ok (⟨ch, d.toNat - 48⟩, (m.after c).after d, more)
        else .ok (⟨ch, 0⟩, m.after c, rest)
      | [] => .ok (⟨ch, 0⟩, m.after c, rest)
    | none =>
      if c == '0' then zero m
      else if isDigitChar c then
        match rest with
        | d :: more =>
          match chomping? d with
          | some ch => .ok (⟨ch, c.toNat - 48⟩, (m.after c).after d, more)
          | none => .ok (⟨.clip, c.toNat - 48⟩, m.after c, rest)
        | [] => .ok (⟨.clip, c.toNat - 48⟩, m.after c, rest)
      else .ok (⟨.clip, 0⟩, m, cs)

/-- Passes blanks and a comment up to the end of the header's line. -/
def headerEnd (m : Mark) (cs : List Char) : Mark × List Char :=
  let (blanks, rest) := cs.span isBlank
  let m := blanks.foldl Mark.after m
  match rest with
  | '#' :: _ =>
    let (comment, rest) := rest.span (fun c => !isBreak c)
    (comment.foldl Mark.after m, rest)
  | _ => (m, rest)

/-- The empty lines in front of a line with content: their breaks, reversed, and the deepest column
reached. -/
structure Gap where
  breaks : List Char
  deepest : Nat
  mark : Mark
  rest : List Char
  deriving Inhabited

/-- Passes empty lines and the indentation of the next line; `indent` is zero while unknown. -/
def gapFrom (start : Mark) (indent deepest : Nat) (breaks : List Char) (m : Mark) :
    List Char → Except ScanFailure Gap
  | [] => .ok ⟨breaks, max deepest m.column, m, []⟩
  | c :: rest =>
    let open' := indent = 0 ∨ m.column < indent
    if c = ' ' ∧ open' then gapFrom start indent deepest breaks (m.after c) rest
    else if c = '\t' ∧ open' then
      .error ⟨start, "found a tab character where an indentation space is expected", m⟩
    else if isBreak c then
      gapFrom start indent (max deepest m.column) (keptBreak c :: breaks) (m.after c) rest
    else .ok ⟨breaks, max deepest m.column, m, c :: rest⟩

/-- The text with what the chomping leaves of the breaks behind it. -/
def chomped (chomping : Chomping) (text lead : List Char) (g : Gap) : ScalarRead :=
  let text := if chomping = .strip then text else lead ++ text
  ⟨textOf (if chomping = .keep then g.breaks ++ text else text), false, g.mark, g.rest⟩

/-- The lines of a block scalar. `text`, `lead` (the break behind the last line) and the gap's
breaks are reversed; `blank` says whether the last line started with a blank. -/
def linesFrom (start : Mark) (literal : Bool) (indent : Nat) (chomping : Chomping) :
    (fuel : Nat) → (text lead : List Char) → (blank : Bool) → Gap →
    Except ScanFailure ScalarRead
  | fuel, text, lead, blank, g =>
    match fuel, g.rest with
    | 0, _ => .ok (chomped chomping text lead g)
    | _ + 1, [] => .ok (chomped chomping text lead g)
    | fuel + 1, c :: rest =>
      if g.mark.column ≠ indent then .ok (chomped chomping text lead g)
      else
        let nowBlank := isBlank c
        let text :=
          if !literal && lead = ['\n'] && !blank && !nowBlank then
            if g.breaks.isEmpty then ' ' :: text else g.breaks ++ text
          else g.breaks ++ (lead ++ text)
        let (content, rest) := (c :: rest).span (fun c => !isBreak c)
        let m := content.foldl Mark.after g.mark
        let (lead, m, rest) := match rest with
          | b :: rest => ([keptBreak b], m.after b, rest)
          | [] => ([], m, [])
        match gapFrom start indent 0 [] m rest with
        | .error e => .error e
        | .ok g => linesFrom start literal indent chomping fuel (content.reverse ++ text) lead nowBlank g

/-- Reads a block scalar behind its indicator; `parent` is the indentation around it. -/
def blockScalar (start : Mark) (literal : Bool) (parent : Int) (m : Mark) (cs : List Char) :
    Except ScanFailure ScalarRead :=
  match headerFrom start m cs with
  | .error e => .error e
  | .ok (header, m, rest) =>
    let (m, rest) := headerEnd m rest
    if !breakNext rest then .error ⟨start, "did not find expected comment or line break", m⟩
    else
      let (m, rest) := match rest with
        | b :: rest => (m.after b, rest)
        | [] => (m, [])
      let given := if header.increment = 0 then 0 else (max parent 0).toNat + header.increment
      match gapFrom start given 0 [] m rest with
      | .error e => .error e
      | .ok g =>
        let indent := if given ≠ 0 then given else max (max g.deepest (parent + 1).toNat) 1
        linesFrom start literal indent header.chomping rest.length [] [] false g

end StatementLang.Yaml
