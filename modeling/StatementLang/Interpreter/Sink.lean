import StatementLang.Bytes

/-!
# Sinks

A sink takes the printed values in program order. Its state is all that it has recorded; a failed
delivery gives a reason and may still change the state.
-/

namespace StatementLang

/-- The effect of one printed value on the sink's state, and the reason if it was not taken. -/
structure Sink (σ : Type) where
  emit : σ → Int → σ × Option Bytes

namespace Sink

/-- The pieces written so far, newest first: each value is written at once, as a decimal line. -/
def writer : Sink (List Bytes) := ⟨fun written v => (line (intText v) :: written, none)⟩

def written (pieces : List Bytes) : Bytes := pieces.reverse.flatten

/-- The values taken so far, newest first. -/
def collector : Sink (List Int) := ⟨fun values v => (v :: values, none)⟩

def discard : Sink Unit := ⟨fun s _ => (s, none)⟩

/-- The number of deliveries tried, and the values taken, newest first. -/
structure Counted where
  calls : Nat
  values : List Int
  deriving DecidableEq, Repr, Inhabited

/-- Refuses its `n`-th value and takes all others; no value is the zeroth. -/
def failingAt (n : Nat) : Sink Counted := ⟨fun s v =>
  if s.calls + 1 = n then (⟨s.calls + 1, s.values⟩, some (utf8 "sink full"))
  else (⟨s.calls + 1, v :: s.values⟩, none)⟩

end Sink

end StatementLang
