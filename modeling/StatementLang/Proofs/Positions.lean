import Mathlib.Data.List.DropRight
import StatementLang.Position

/-!
# Positions and texts

The position behind a text counts its newlines, the bytes behind its last newline, and all its
bytes. If a text is put behind another one, its positions move: lines by the newlines in front,
offsets by all bytes in front, and columns of the first line by what is left of the last line in
front.
-/

namespace StatementLang

def lastLine (text : Bytes) : Bytes := text.rtakeWhile (· != newline)

@[simp] theorem lastLine_nil : lastLine [] = [] := rfl

@[simp] theorem lastLine_concat (text : Bytes) (b : UInt8) :
    lastLine (text ++ [b]) = if b = newline then [] else lastLine text ++ [b] := by
  by_cases hb : b = newline <;> simp [lastLine, hb]

namespace Position

@[simp] theorem offset_after (p : Position) (b : UInt8) : (p.after b).offset = p.offset + 1 := by
  rw [after]
  split <;> rfl

@[simp] theorem offset_afterText (p : Position) (text : Bytes) :
    (p.afterText text).offset = p.offset + text.length := by
  induction text generalizing p with
  | nil => simp
  | cons b text ih =>
    rw [afterText_cons, ih, offset_after, List.length_cons]
    omega

@[simp] theorem line_afterText (p : Position) (text : Bytes) :
    (p.afterText text).line = p.line + text.count newline := by
  induction text generalizing p with
  | nil => simp
  | cons b text ih =>
    rw [afterText_cons, ih, after]
    by_cases hb : b = newline
    · simp only [hb, if_true, List.count_cons_self]
      omega
    · simp [hb]

/-- The position behind a text, counted in the text itself. -/
theorem afterText_start (text : Bytes) :
    start.afterText text =
      ⟨text.count newline + 1, (lastLine text).length + 1, text.length⟩ := by
  induction text using List.reverseRecOn with
  | nil => rfl
  | append_singleton text b ih =>
    rw [afterText_append, ih, lastLine_concat, afterText_cons, afterText_nil, after]
    by_cases hb : b = newline
    · simp [hb]
    · simp [hb]

/-- Where the byte at `p` stands once a text has been put in front. -/
def shifted (front : Bytes) (p : Position) : Position where
  line := p.line + front.count newline
  column := if p.line = 1 then p.column + (lastLine front).length else p.column
  offset := p.offset + front.length

theorem line_pos_after {p : Position} (h : 1 ≤ p.line) (b : UInt8) : 1 ≤ (p.after b).line := by
  rw [after]
  split
  · exact Int.le_trans h (Int.le_add_of_nonneg_right (by decide))
  · exact h

theorem line_pos_afterText {p : Position} (h : 1 ≤ p.line) (text : Bytes) :
    1 ≤ (p.afterText text).line := by
  induction text generalizing p with
  | nil => exact h
  | cons b text ih => exact ih (line_pos_after h b)

theorem shifted_after {p : Position} (h : 1 ≤ p.line) (front : Bytes) (b : UInt8) :
    (p.after b).shifted front = (p.shifted front).after b := by
  by_cases hb : b = newline
  · have hline : p.line + 1 ≠ 1 := by omega
    simp only [after, shifted, hb, if_true, hline, if_false]
    congr 1 <;> omega
  · simp only [after, shifted, hb, if_false]
    split <;> congr 1 <;> omega

/-- Going over a text in its old place and in its new one. -/
theorem shifted_afterText {p : Position} (h : 1 ≤ p.line) (front text : Bytes) :
    (p.afterText text).shifted front = (p.shifted front).afterText text := by
  induction text generalizing p with
  | nil => rfl
  | cons b text ih => rw [afterText_cons, ih (line_pos_after h b), shifted_after h, afterText_cons]

@[simp] theorem shifted_start (front : Bytes) : start.shifted front = start.afterText front := by
  rw [afterText_start]
  simp only [shifted, start, if_true]
  congr 1 <;> omega

end Position

end StatementLang
