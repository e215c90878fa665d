import StatementLang.Text.Blank

/-!
# Completion in interactive sessions

The words that can start a line are offered as long as what was typed is the beginning of one.
-/

namespace StatementLang.Completion

/-- The words in the order in which they are offered, each with the space behind it. -/
def words : List Bytes :=
  [".help ", ".vars ", ".reset ", ".quit ", ".exit ", "var ", "print "].map utf8

structure Offer where
  candidates : List Bytes
  length : Nat
  deriving DecidableEq, Repr, Inhabited

def none : Offer := ⟨[], 0⟩

/-- A typed text that reaches beyond a word has nothing more to offer. -/
def offer (typed : List Rune) : Offer :=
  let n := typed.length
  let started := words.filter fun w => n < w.length ∧ typed.isPrefixOf (runes w)
  let whole := words.any fun w => w.length ≤ n ∧ (runes w).isPrefixOf typed
  if whole ∨ started.isEmpty then none
  else ⟨started.map (·.drop n), n⟩

/-- The offer at rune position `pos` of a line; leading white space does not count. -/
def atPosition (text : Bytes) (pos : Nat) : Offer :=
  offer (((runes text).take pos).dropWhile Rune.isSpace)

end StatementLang.Completion
