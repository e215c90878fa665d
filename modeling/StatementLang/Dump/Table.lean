import StatementLang.Text.Width

/-!
# Boxed tables

A table has a header, rows and light borders. Each column is as wide as its longest cell; numbers
are aligned to the right together with their header.
-/

namespace StatementLang

inductive Align where
  | left
  | right
  deriving DecidableEq, Repr, Inhabited

structure Column where
  title : Bytes
  align : Align
  deriving Repr, Inhabited

namespace BoxTable

/-- Fills a text up to a width. Spaces on the side of the filling do not count. -/
def pad (a : Align) (w : Nat) (text : Bytes) : Bytes :=
  match a with
  | .left =>
    let text := trimRight (· == space) text
    text ++ List.replicate (w - displayWidth text) space
  | .right =>
    let text := text.dropWhile (· == space)
    List.replicate (w - displayWidth text) space ++ text

/-- What is left of a line in which each carriage return starts again at its first character. -/
def overwritten (line : Bytes) : Bytes :=
  if line.contains 13 then
    let (shown, _) := (runes line).foldl
      (fun (shown, i) r =>
        if r.code = 13 then (shown, 0)
        else if i < shown.size then (shown.setIfInBounds i r.code, i + 1)
        else (shown.push r.code, i + 1)) ((#[] : Array Nat), 0)
    shown.toList.flatMap encodeRune
  else line

/-- A line that a newline ends, without a carriage return in front of the newline. -/
def endedLine (line : Bytes) : Bytes := if line.getLast? = some 13 then line.dropLast else line

/-- The lines of a cell. Tabs become four spaces, and carriage returns are carried out. -/
def cellLines (text : Bytes) : List Bytes :=
  let text := text.flatMap fun b => if b = 9 then List.replicate 4 space else [b]
  let lines := splitOn newline text
  (lines.dropLast.map endedLine ++ lines.getLast?.toList).map overwritten

def cellText (text : Bytes) : Bytes := joinWith [newline] (cellLines text)

/-- A border between `left` and `right`, with `cross` at the column edges. -/
def border (left cross right : String) (widths : List Nat) : Bytes :=
  let bars := widths.map fun w => (List.replicate (w + 2) (utf8 "─")).flatten
  line (utf8 left ++ joinWith (utf8 cross) bars ++ utf8 right)

def rowLine (aligns : List Align) (widths : List Nat) (cells : List Bytes) : Bytes :=
  let padded := (aligns.zip (widths.zip cells)).map fun (a, w, c) => utf8 " " ++ pad a w c ++ utf8 " "
  line (utf8 "│" ++ joinWith (utf8 "│") padded ++ utf8 "│")

/-- A row takes as many lines as its tallest cell. -/
def row (aligns : List Align) (widths : List Nat) (cells : List Bytes) : Bytes :=
  let lines := cells.map (splitOn newline)
  let height := (lines.map List.length).foldl max 1
  (List.range height).flatMap fun i => rowLine aligns widths (lines.map fun ls => ls.getD i [])

def columnWidth (rows : List (List Bytes)) (i : Nat) : Nat :=
  (rows.map fun r => longestWidth (r.getD i [])).foldl max 0

def render (columns : List Column) (rows : List (List Bytes)) : Bytes :=
  let rows := rows.map (·.map cellText)
  let header := columns.map (·.title)
  let aligns := columns.map (·.align)
  let widths := (List.range columns.length).map (columnWidth (header :: rows))
  border "┌" "┬" "┐" widths ++ row aligns widths header ++ border "├" "┼" "┤" widths ++
    rows.flatMap (row aligns widths) ++ border "└" "┴" "┘" widths

end BoxTable

end StatementLang
