import StatementLang.Bytes

/-!
# Values of digit runs

The value of a run of decimal digits of any length. Values at or above a bound are not told apart:
`boundedValue` stops growing there, which keeps long runs cheap.
-/

namespace StatementLang

/-- The greatest value of a variable. -/
def maxValue : Nat := 9223372036854775807

def digitValue (b : UInt8) : Nat := b.toNat - 48

def decimalValue (digits : Bytes) : Nat := digits.foldl (fun v d => v * 10 + digitValue d) 0

/-- The number a run of decimal digits denotes, or `bound` if it is greater. -/
def boundedValue (bound : Nat) (digits : Bytes) : Nat :=
  digits.foldl (fun v d => min (v * 10 + digitValue d) bound) 0

theorem foldl_min_eq (bound : Nat) (digits : Bytes) (v : Nat) :
    digits.foldl (fun v d => min (v * 10 + digitValue d) bound) (min v bound) =
      min (digits.foldl (fun v d => v * 10 + digitValue d) v) bound := by
  induction digits generalizing v with
  | nil => rfl
  | cons d ds ih =>
    simp only [List.foldl_cons]
    rw [← ih]
    congr 1
    omega

@[simp] theorem boundedValue_eq_min (bound : Nat) (digits : Bytes) :
    boundedValue bound digits = min (decimalValue digits) bound := by
  have h := foldl_min_eq bound digits 0
  rw [Nat.zero_min] at h
  exact h

/-- The value of an integer literal, if a variable can hold it. -/
def literalValue? (digits : Bytes) : Option Nat :=
  let v := boundedValue (maxValue + 1) digits
  if v ≤ maxValue then some v else none

theorem literalValue?_eq (digits : Bytes) :
    literalValue? digits =
      if decimalValue digits ≤ maxValue then some (decimalValue digits) else none := by
  simp only [literalValue?, boundedValue_eq_min]
  split <;> split
  · congr 1; omega
  · omega
  · omega
  · rfl

end StatementLang
