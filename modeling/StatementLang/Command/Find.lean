import StatementLang.Command.Spec
import StatementLang.Text.LetterCase

/-!
# Finding the command

The first argument that is neither a flag nor the value of one names the command. Before flags are
read, every flag but a known switch is taken to have a value behind it.
-/

namespace StatementLang.Command

def startsWithDash (argument : Bytes) : Bool := argument.head? = some 45

def isSwitchName (name : Bytes) : Bool :=
  Flag.globals.any fun f => f.name == name && f.kind = .switch

def isSwitchLetter (letter : UInt8) : Bool :=
  Flag.globals.any fun f => f.letter == some letter && f.kind = .switch

/-- A flag without a value of its own that is no known switch. -/
def takesNext (argument : Bytes) : Bool :=
  !argument.contains 61 && match argument with
    | 45 :: 45 :: name => !isSwitchName name
    | [45, letter] => !isSwitchLetter letter
    | _ => false

/-- The arguments that may name a command. A flag that takes the last argument ends the search. -/
def words : List Bytes → List Bytes
  | [] => []
  | a :: rest =>
    if a = utf8 "--" then []
    else if takesNext a then
      match rest with
      | [] => []
      | _ :: more => if more.isEmpty then [] else words more
    else if a.isEmpty ∨ startsWithDash a then words rest
    else a :: words rest

/-- The arguments without the one that names the command. -/
def without (word : Bytes) : List Bytes → List Bytes
  | [] => []
  | a :: rest =>
    if a = utf8 "--" then a :: rest
    else if takesNext a then
      match rest with
      | [] => [a]
      | value :: more => a :: value :: without word more
    else if a = word then rest
    else a :: without word rest

/-- The next row of a table of edit distances: `left` is the entry to the left of the cell, and
`diagonal` the one above that. -/
def distanceRow (c : UInt8) : (left diagonal : Nat) → Bytes → List Nat → List Nat
  | left, diagonal, d :: ds, up :: ups =>
    let here := if c = d then diagonal else min (min up left) diagonal + 1
    here :: distanceRow c here up ds ups
  | _, _, _, _ => []

/-- The fewest insertions, deletions and replacements of a byte that lead from one text to the
other. -/
def editDistance (s t : Bytes) : Nat :=
  let first := List.range (t.length + 1)
  (s.foldl (fun row c =>
    match row with
    | [] => []
    | corner :: ups => (corner + 1) :: distanceRow c (corner + 1) corner t ups) first).getLastD 0

def maxDistance : Nat := 2

def suggestions (typed : Bytes) : List Bytes :=
  let word := toLower typed
  (all.map name).filter fun n => editDistance word n ≤ maxDistance || word.isPrefixOf n

inductive Found where
  | command (c : Command) (calledAs : Bytes) (arguments : List Bytes)
  | program
  | unknown (word : Bytes)
  deriving Repr

def find (arguments : List Bytes) : Found :=
  match words arguments with
  | [] => .program
  | word :: _ =>
    match ofName? word with
    | some c => .command c word (without word arguments)
    | none => .unknown word

def unknownMessage (word : Bytes) : Bytes :=
  let names := suggestions word
  utf8 "unknown command " ++ quote word ++ utf8 " for " ++ quote programName ++
    if names.isEmpty then []
    else utf8 "\n\nDid you mean this?\n" ++ names.flatMap fun n => utf8 "\t" ++ line n

end StatementLang.Command
