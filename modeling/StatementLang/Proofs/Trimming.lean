import StatementLang.Proofs.Lexing
import StatementLang.Text.Blank

/-!
# White space around a scannable line

Unicode knows more white space than the language has blanks, but none of it can stand in a text that
scans: there every byte is a character of its own, and white space is blank. So trimming such a
line leaves what lies between its first and its last byte that is not blank.
-/

namespace StatementLang

/-- The bytes that can stand in a text that scans. -/
def Scannable (text : Bytes) : Prop := ∀ b ∈ text, isBlank b ∨ isSolid b

@[simp] theorem scannable_cons {b : UInt8} {text : Bytes} :
    Scannable (b :: text) ↔ (isBlank b ∨ isSolid b) ∧ Scannable text := by
  simp [Scannable]

@[simp] theorem encodeRune_of_lt {c : Nat} (h : c < 0x80) : encodeRune c = [UInt8.ofNat c] := by
  simp [encodeRune, h]
@[simp] theorem Rune.bytes_char (c : Nat) : (char c).bytes = encodeRune c := rfl

/-- A byte that is a character of its own. -/
def Rune.ofByte (b : UInt8) : Rune := .char b.toNat

theorem ascii_of_scannable {b : UInt8} (h : isBlank b ∨ isSolid b) : b < 0x80 := by
  grind [isBlank, isSolid, isLower, isDigit]

/-- Below the bytes of longer characters each byte is a character of its own. -/
theorem runesFrom_of_ascii (done : List Rune) {text : Bytes} (h : ∀ b ∈ text, b < 0x80) :
    runesFrom done text = done.reverse ++ text.map Rune.ofByte := by
  induction text generalizing done with
  | nil => simp [runesFrom]
  | cons b text ih =>
    have hfirst : firstRune b text = (Rune.ofByte b, 0) := by
      unfold firstRune
      rw [if_pos (h b (by simp)), Rune.ofByte]
    rw [runesFrom, hfirst, List.drop_zero, ih _ fun c hc => h c (by simp [hc])]
    simp

theorem runes_of_ascii {text : Bytes} (h : ∀ b ∈ text, b < 0x80) :
    runes text = text.map Rune.ofByte :=
  runesFrom_of_ascii [] h

theorem bytes_ofByte {b : UInt8} (h : b < 0x80) : (Rune.ofByte b).bytes = [b] := by
  have hlt : b.toNat < 0x80 := h
  simp [Rune.ofByte, hlt]

theorem solid_bounds {b : UInt8} (h : isSolid b) : 48 ≤ b.toNat ∧ b.toNat ≤ 122 := by
  simp only [isSolid, isLower, isDigit, Bool.or_eq_true, beq_iff_eq, Bool.and_eq_true,
    decide_eq_true_eq, UInt8.le_iff_toNat_le] at h
  rcases h with ((rfl | rfl) | h) | h
  · decide
  · decide
  · exact ⟨Nat.le_trans (by decide) h.1, h.2⟩
  · exact ⟨h.1, Nat.le_trans h.2 (by decide)⟩

theorem isSpace_ofByte {b : UInt8} (h : isBlank b ∨ isSolid b) :
    (Rune.ofByte b).isSpace = isBlank b := by
  rcases h with h | h
  · rw [h]
    simp only [isBlank, Bool.or_eq_true, beq_iff_eq] at h
    rcases h with ((rfl | rfl) | rfl) | rfl <;> rfl
  · rw [not_blank_of_solid h]
    obtain ⟨hlo, hhi⟩ := solid_bounds h
    simp only [Rune.ofByte, Rune.isSpace, isSpaceCode, Bool.or_eq_false_iff,
      Bool.and_eq_false_iff, decide_eq_false_iff_not, beq_eq_false_iff_ne]
    omega

theorem dropWhile_ofByte {text : Bytes} (h : Scannable text) :
    (text.map Rune.ofByte).dropWhile Rune.isSpace = (text.dropWhile isBlank).map Rune.ofByte := by
  induction text with
  | nil => rfl
  | cons b text ih =>
    obtain ⟨hb, ht⟩ := scannable_cons.mp h
    rw [List.map_cons, List.dropWhile_cons, List.dropWhile_cons, isSpace_ofByte hb]
    split
    · exact ih ht
    · rfl

/-- Characters that are each written as their one byte make up the text again. -/
theorem flatMap_ofByte {write : Rune → Bytes} {text : Bytes}
    (h : ∀ b ∈ text, write (Rune.ofByte b) = [b]) :
    (text.map Rune.ofByte).flatMap write = text := by
  rw [List.flatMap_map, List.flatMap_congr h, List.flatMap_singleton']

/-- White space around a scannable text is blank. -/
theorem trimSpace_of_scannable {text : Bytes} (h : Scannable text) :
    trimSpace text = trimRight isBlank (text.dropWhile isBlank) := by
  have hfront : Scannable (text.dropWhile isBlank).reverse := by
    intro b hb
    exact h b (List.dropWhile_subset isBlank (List.mem_reverse.mp hb))
  have hback : Scannable ((text.dropWhile isBlank).reverse.dropWhile isBlank).reverse := by
    intro b hb
    exact hfront b (List.dropWhile_subset isBlank (List.mem_reverse.mp hb))
  rw [trimSpace, runes_of_ascii fun b hb => ascii_of_scannable (h b hb), dropWhile_ofByte h,
    ← List.map_reverse, dropWhile_ofByte hfront, ← List.map_reverse,
    flatMap_ofByte fun b hb => bytes_ofByte (ascii_of_scannable (hback b hb)), trimRight]

theorem trimRight_of_last {p : UInt8 → Bool} {x : UInt8} (hx : p x = false) (a : Bytes) {w : Bytes}
    (hw : ∀ b ∈ w, p b) : trimRight p (a ++ x :: w) = a ++ [x] := by
  have hrev : ∀ b ∈ w.reverse, p b := fun b hb => hw b (List.mem_reverse.mp hb)
  rw [trimRight, List.reverse_append, List.reverse_cons, List.append_assoc,
    List.dropWhile_append_of_pos hrev]
  simp [hx]

/-- A trimmed line ends with its last byte that is not blank. -/
theorem getLast?_trimSpace {a w : Bytes} {x : UInt8} (h : Scannable (a ++ x :: w))
    (hx : isBlank x = false) (hw : Blank w) : (trimSpace (a ++ x :: w)).getLast? = some x := by
  have hdrop : ∃ a', (a ++ x :: w).dropWhile isBlank = a' ++ x :: w := by
    rw [List.dropWhile_append]
    split
    · exact ⟨[], by simp [hx]⟩
    · exact ⟨a.dropWhile isBlank, rfl⟩
  obtain ⟨a', ha'⟩ := hdrop
  rw [trimSpace_of_scannable h, ha', trimRight_of_last hx a' hw]
  simp

theorem trimSpace_of_blank {w : Bytes} (h : Blank w) : trimSpace w = [] := by
  have hd : w.dropWhile isBlank = [] := List.dropWhile_eq_nil_iff.mpr h
  rw [trimSpace_of_scannable fun b hb => .inl (h b hb), hd]
  rfl

/-- A scannable line does not start with a dot. -/
theorem head?_trimSpace_ne_dot {text : Bytes} (h : Scannable text) :
    (trimSpace text).head? ≠ some 46 := by
  intro hd
  have hmem : (46 : UInt8) ∈ text := by
    rw [trimSpace_of_scannable h] at hd
    obtain ⟨w, hw, -⟩ := trimRight_append isBlank (text.dropWhile isBlank)
    have hin : (46 : UInt8) ∈ text.dropWhile isBlank := by
      rw [hw]
      exact List.mem_append_left _ (List.mem_of_head? hd)
    exact List.dropWhile_subset isBlank hin
  have hdot := h 46 hmem
  revert hdot
  decide

/-- A text that is not blank has a last byte that is not. -/
theorem exists_last_of_not_blank {text : Bytes} (h : ¬ Blank text) :
    ∃ a x w, text = a ++ x :: w ∧ isBlank x = false ∧ Blank w := by
  induction text with
  | nil => exact absurd blank_nil h
  | cons b text ih =>
    by_cases ht : Blank text
    · refine ⟨[], b, text, rfl, ?_, ht⟩
      cases hb : isBlank b with
      | false => rfl
      | true => exact absurd ((blank_cons b text).mpr ⟨hb, ht⟩) h
    · obtain ⟨a, x, w, rfl, hx, hw⟩ := ih ht
      exact ⟨b :: a, x, w, rfl, hx, hw⟩

theorem blank_of_trimSpace {text : Bytes} (h : Scannable text) (ht : trimSpace text = []) :
    Blank text := by
  by_contra hb
  obtain ⟨a, x, w, rfl, hx, hw⟩ := exists_last_of_not_blank hb
  have hlast := getLast?_trimSpace h hx hw
  rw [ht] at hlast
  cases hlast

/-- The last byte that is not blank ends the last lexeme. -/
theorem Lexes.getLast?_of_last {a w : Bytes} {x : UInt8} {ls : List Lexeme}
    (h : Lexes (a ++ x :: w) ls) (hx : isBlank x = false) (hw : Blank w) :
    ∃ front l, ls = front ++ [l] ∧ l.WellFormed ∧ l.literal.getLast? = some x := by
  rcases List.eq_nil_or_concat ls with rfl | ⟨front, l, rfl⟩
  · have hblank := h.blank_of_nil x (by simp)
    rw [hx] at hblank
    cases hblank
  · rw [List.concat_eq_append] at h ⊢
    have hl := h.wellFormed l (by simp)
    rcases List.eq_nil_or_concat l.literal with hnil | ⟨c, y, hc⟩
    · exact absurd hnil hl.literal_ne_nil
    · obtain ⟨u, v, huv, hv⟩ := h.exists_last
      have hy := not_blank_of_solid (hl.solid y (by simp [hc]))
      have ht := congrArg (trimRight isBlank) huv
      rw [hc, trimRight_of_last hx a hw, List.concat_append, ← List.append_assoc,
        trimRight_of_last hy (u ++ c) hv] at ht
      obtain rfl : x = y := by simpa using (List.append_inj' ht rfl).2
      exact ⟨front, l, rfl, hl, by simp [hc]⟩

/-- Only a semicolon ends with one. -/
theorem Lexeme.WellFormed.eq_semicolon {l : Lexeme} (h : l.WellFormed)
    (hl : l.literal.getLast? = some 59) : l = .semicolon := by
  have hmem := List.mem_of_getLast? hl
  cases h with
  | semicolon => rfl
  | ident _ lower => exact absurd (lower 59 hmem) (by decide)
  | int _ digit => exact absurd (digit 59 hmem) (by decide)
  | _ => exact absurd hl (by decide)

/-- A trimmed line ends with a semicolon exactly if its last lexeme is one. -/
theorem Lexes.exists_last_of_line {a text : Bytes} {ls : List Lexeme} (h : Lexes (a ++ text) ls)
    (hb : ¬ Blank text) :
    ∃ front l, ls = front ++ [l] ∧ ((trimSpace text).getLast? = some 59 ↔ l = .semicolon) := by
  have hscan : Scannable text := fun b hb => h.blank_or_solid b (by simp [hb])
  obtain ⟨v, x, w, rfl, hx, hw⟩ := exists_last_of_not_blank hb
  rw [← List.append_assoc] at h
  obtain ⟨front, l, rfl, hl, hlast⟩ := h.getLast?_of_last hx hw
  refine ⟨front, l, rfl, ?_⟩
  rw [getLast?_trimSpace hscan hx hw, ← hlast]
  constructor
  · exact hl.eq_semicolon
  · rintro rfl
    rfl

end StatementLang
