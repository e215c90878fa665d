import StatementLang.Repl.Completion

/-!
# Input of an interactive session

What is typed, or arrives through a pipe, is a sequence of keys. Most keys add a character to the
line; a few end it, drop it or change its end.
-/

namespace StatementLang

/-- What the keys amount to. A bell answers a key that has nothing to act on. -/
inductive SessionInput where
  | line (text : Bytes)
  | interrupt
  | bell
  deriving DecidableEq, Repr, Inhabited

inductive Key where
  | char (c : Nat)
  | enter
  | interrupt
  | delete
  | finish
  | erase
  | eraseAll
  | complete
  | other
  deriving DecidableEq, Repr, Inhabited

/-- Control characters are keys of their own; a byte that is no text stands for the replacement
character. -/
def Key.ofRune : Rune → Key
  | .invalid _ => .char replacement
  | .char c =>
    if c = 0 then .finish
    else if c = 3 then .interrupt
    else if c = 4 then .delete
    else if c = 8 ∨ c = 127 then .erase
    else if c = 9 then .complete
    else if c = 10 ∨ c = 13 then .enter
    else if c = 21 then .eraseAll
    else if c < 32 then .other
    else .char c

/-- The line so far and the inputs so far, both newest first. Nothing is read once `ended`. -/
structure Keyboard where
  typed : List Nat
  inputs : List SessionInput
  ended : Bool
  deriving Inhabited

namespace Keyboard

def start : Keyboard := ⟨[], [], false⟩

def text (k : Keyboard) : Bytes := k.typed.reverse.flatMap encodeRune

def push (k : Keyboard) (i : SessionInput) : Keyboard := { k with inputs := i :: k.inputs }

def enter (k : Keyboard) : Keyboard := { k with typed := [], inputs := .line k.text :: k.inputs }

/-- The end of the word before the cursor is added if there is only one. -/
def complete (k : Keyboard) : Keyboard :=
  match (Completion.atPosition k.text k.typed.length).candidates with
  | [rest] => { k with typed := (rest.map UInt8.toNat).reverse ++ k.typed }
  | _ => k

def press (k : Keyboard) (key : Key) : Keyboard :=
  if k.ended then k
  else match key with
    | .char c => { k with typed := c :: k.typed }
    | .enter => k.enter
    | .interrupt => { k with typed := [], inputs := .interrupt :: k.inputs }
    | .delete => if k.typed.isEmpty then { k with ended := true } else k.push .bell
    | .finish => if k.typed.isEmpty then { k with ended := true } else k.enter
    | .erase => if k.typed.isEmpty then k.push .bell else { k with typed := k.typed.tail }
    | .eraseAll => { k with typed := [] }
    | .complete => k.complete
    | .other => k

end Keyboard

/-- The inputs in a text. A last line needs no end. -/
def sessionInputs (text : Bytes) : List SessionInput :=
  let k := (runes text).foldl (fun k r => k.press (.ofRune r)) Keyboard.start
  (if k.ended || k.typed.isEmpty then k else k.enter).inputs.reverse

end StatementLang
