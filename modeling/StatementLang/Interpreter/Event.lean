import StatementLang.Position

/-!
# Events of a run

What a run does to the table and the sink, in the order in which it does it. The debug log is the
text of these events.
-/

namespace StatementLang

inductive Event where
  | declared (name : Bytes) (pos : Position)
  | assigned (name : Bytes) (value : Int) (pos : Position)
  | printed (value : Int) (pos : Position)
  | finished (statements symbols : Nat)
  deriving DecidableEq, Repr, Inhabited

end StatementLang
