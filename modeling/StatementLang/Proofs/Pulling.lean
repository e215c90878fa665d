import StatementLang.Proofs.Positions
import StatementLang.Proofs.Scan

/-!
# What has been pulled

Pulling tokens moves a cursor over a text. The text is the lexemes of these tokens with blanks
around them, also when it is cut off right there, and the cursor's position is the one behind it.
Tokens that were pulled start before the cursor, those to come start where it stands or later.
-/

namespace StatementLang

namespace Cursor

variable {c d e : Cursor} {text more : Bytes} {t : Token} {ts us : List Token}

/-- One cursor stands behind the text in front of the other. -/
structure Passes (c : Cursor) (text : Bytes) (d : Cursor) : Prop where
  rest : c.rest = text ++ d.rest
  pos : d.pos = c.pos.afterText text

theorem Passes.refl (c : Cursor) : c.Passes [] c := ⟨rfl, rfl⟩

theorem Passes.trans (h : c.Passes text d) (h' : d.Passes more e) : c.Passes (text ++ more) e := by
  refine ⟨?_, ?_⟩
  · rw [h.rest, h'.rest, List.append_assoc]
  · rw [h'.pos, h.pos, Position.afterText_append]

theorem Passes.offset (h : c.Passes text d) : d.pos.offset = c.pos.offset + text.length := by
  rw [h.pos, Position.offset_afterText]

theorem passes_skipBlanks (c : Cursor) : c.Passes (c.rest.takeWhile isBlank) c.skipBlanks :=
  ⟨List.takeWhile_append_dropWhile.symm, rfl⟩

theorem blank_takeWhile (text : Bytes) : Blank (text.takeWhile isBlank) :=
  fun _ hb => List.mem_takeWhile_imp hb

/-- A token stands behind the blanks in front of the cursor, and the cursor behind the token. -/
theorem passes_of_token (h : c.next.1 = .ok t) (hk : t.kind ≠ .eof) :
    t.toLexeme.WellFormed ∧ t.toLexeme.EndsBefore c.next.2.rest ∧ t.pos = c.skipBlanks.pos ∧
      c.skipBlanks.Passes t.literal c.next.2 := by
  rcases next_ok_cases h with ⟨ht, -, -⟩ | ⟨hwf, he, hrest⟩
  · exact absurd (by rw [ht]) hk
  · refine ⟨hwf, he, ?_⟩
    cases hl : lexeme? c.skipBlanks.rest with
    | none => rw [next_of_none hl] at h; cases h
    | some l =>
      rw [next_of_some hl] at h hrest ⊢
      obtain rfl : (⟨l, c.skipBlanks.pos⟩ : Token) = t := by injection h
      have htake : c.skipBlanks.rest.take l.literal.length = l.literal := by
        rw [skipBlanks, hrest, List.take_left]
      exact ⟨rfl, hrest, by rw [advance, htake]⟩

/-- The end of input is found behind blanks only. -/
theorem rest_of_eof (h : c.next.1 = .ok t) (hk : t.kind = .eof) :
    t.pos = c.skipBlanks.pos ∧ c.skipBlanks.rest = [] := by
  cases hl : lexeme? c.skipBlanks.rest with
  | none => rw [next_of_none hl] at h; cases h
  | some l =>
    rw [next_of_some hl] at h
    obtain rfl : (⟨l, c.skipBlanks.pos⟩ : Token) = t := by injection h
    rcases wellFormed_of_lexeme? hl with ⟨hnil, -⟩ | ⟨hwf, -⟩
    · exact ⟨rfl, hnil⟩
    · exact absurd hk hwf.kind_ne_eof

/-- A failed pull reports the text behind the blanks, whose first byte starts no token. -/
theorem rest_of_error {err : LexError} (h : c.next.1 = .error err) :
    err = ⟨c.skipBlanks.pos, c.skipBlanks.rest⟩ ∧ lexeme? c.skipBlanks.rest = none := by
  cases hl : lexeme? c.skipBlanks.rest with
  | none =>
    rw [next_of_none hl] at h
    injection h with h
    exact ⟨h.symm, rfl⟩
  | some l => rw [next_of_some hl] at h; cases h

/-- The text that a failed pull reports starts with a byte of no use. -/
theorem exists_unmatched {err : LexError} (h : c.next.1 = .error err) :
    ∃ b rest, c.skipBlanks.rest = b :: rest ∧ isBlank b = false ∧ isSolid b = false := by
  have hnone := (rest_of_error h).2
  cases hrest : c.skipBlanks.rest with
  | nil => rw [hrest] at hnone; cases hnone
  | cons b rest =>
    have hdrop : c.rest.dropWhile isBlank = b :: rest := hrest
    have hblank := head?_dropWhile_stop isBlank c.rest b (by rw [hdrop]; rfl)
    rw [hrest] at hnone
    exact ⟨b, rest, rfl, hblank, lexeme?_eq_none_iff.mp hnone⟩

/-- Pulling the tokens, none of them the end of input, takes one cursor to the other. -/
inductive Reads : Cursor → List Token → Cursor → Prop
  | nil (c : Cursor) : Reads c [] c
  | cons {c d : Cursor} {t : Token} {ts : List Token} (ht : c.next.1 = .ok t)
      (hk : t.kind ≠ .eof) (hr : Reads c.next.2 ts d) : Reads c (t :: ts) d

namespace Reads

@[simp] theorem nil_iff : c.Reads [] d ↔ d = c := by
  constructor
  · rintro ⟨⟩
    rfl
  · rintro rfl
    exact .nil d

@[simp] theorem cons_iff :
    c.Reads (t :: ts) d ↔ c.next.1 = .ok t ∧ t.kind ≠ .eof ∧ c.next.2.Reads ts d := by
  constructor
  · rintro (_ | ⟨ht, hk, hr⟩)
    exact ⟨ht, hk, hr⟩
  · rintro ⟨ht, hk, hr⟩
    exact .cons ht hk hr

theorem single (ht : c.next.1 = .ok t) (hk : t.kind ≠ .eof) : c.Reads [t] c.next.2 :=
  .cons ht hk (.nil _)

theorem trans (h : c.Reads ts d) (h' : d.Reads us e) : c.Reads (ts ++ us) e := by
  induction h with
  | nil => exact h'
  | cons ht hk _ ih => exact .cons ht hk (ih h')

theorem append_iff : c.Reads (ts ++ us) e ↔ ∃ d, c.Reads ts d ∧ d.Reads us e := by
  constructor
  · intro h
    induction ts generalizing c with
    | nil => exact ⟨c, .nil c, h⟩
    | cons t ts ih =>
      obtain ⟨ht, hk, hr⟩ := cons_iff.mp h
      obtain ⟨d, hd, he⟩ := ih hr
      exact ⟨d, .cons ht hk hd, he⟩
  · rintro ⟨d, hd, he⟩
    exact hd.trans he

/-- What was pulled stands in front of what is still to come. -/
theorem scan_eq (h : c.Reads ts d) : c.scan = ⟨ts ++ d.scan.tokens, d.scan.error⟩ := by
  induction h with
  | nil => rfl
  | cons ht hk _ ih => rw [scan_of_token ht hk, ih, List.cons_append]

theorem lexemes_eq (h : c.Reads ts d) :
    c.scan.lexemes = ts.map Token.toLexeme ++ d.scan.lexemes := by
  simp [Scan.lexemes, h.scan_eq]

/-- The text that was passed consists of the lexemes of the tokens, whatever follows it. -/
theorem lexes (h : c.Reads ts d) : ∃ text, c.Passes text d ∧ Lexes text (ts.map Token.toLexeme) := by
  induction h with
  | nil c => exact ⟨[], .refl c, .blank blank_nil⟩
  | @cons c d t ts ht hk _ ih =>
    obtain ⟨hwf, he, -, hpass⟩ := passes_of_token ht hk
    obtain ⟨text, htext, hlex⟩ := ih
    refine ⟨_, (passes_skipBlanks c).trans (hpass.trans htext), ?_⟩
    refine .lexeme (blank_takeWhile c.rest) hwf ?_ hlex
    rw [htext.rest] at he
    cases text with
    | nil => simp
    | cons b text => simpa using he

/-- The last token that was pulled is as long as it can be. -/
theorem endsBefore (h : c.Reads ts d) : ∀ t ∈ ts.getLast?, t.toLexeme.EndsBefore d.rest := by
  induction h with
  | nil => simp
  | @cons c d t ts ht hk hr ih =>
    intro u hu
    cases ts with
    | nil =>
      obtain rfl := nil_iff.mp hr
      obtain rfl : t = u := by simpa using hu
      exact (passes_of_token ht hk).2.1
    | cons v ts => exact ih u (by simpa using hu)

theorem offset_lt (h : c.Reads ts d) : ∀ t ∈ ts, t.pos.offset < d.pos.offset := by
  induction h with
  | nil => simp
  | @cons c d t ts ht hk hr ih =>
    intro u hu
    rcases List.mem_cons.mp hu with rfl | hu
    · obtain ⟨hwf, -, hpos, hpass⟩ := passes_of_token ht hk
      obtain ⟨text, htext, -⟩ := hr.lexes
      have hlen := List.length_pos_iff.mpr hwf.literal_ne_nil
      have h₁ := hpass.offset
      have h₂ := htext.offset
      rw [hpos]
      omega
    · exact ih u hu

end Reads

/-- Pulling comes to the end of the text or to a byte that starts no token. -/
theorem exists_reads (c : Cursor) :
    ∃ ts d, c.Reads ts d ∧
      ((∃ t, d.next.1 = .ok t ∧ t.kind = .eof) ∨ ∃ err, d.next.1 = .error err) := by
  induction c using pull_induction with
  | step c ih =>
    cases hc : c.next.1 with
    | error err => exact ⟨[], c, .nil c, .inr ⟨err, hc⟩⟩
    | ok t =>
      by_cases hk : t.kind = .eof
      · exact ⟨[], c, .nil c, .inl ⟨t, hc, hk⟩⟩
      · obtain ⟨ts, d, hr, hend⟩ := ih t hc hk
        exact ⟨t :: ts, d, .cons hc hk hr, hend⟩

theorem offset_le_skipBlanks (c : Cursor) : c.pos.offset ≤ c.skipBlanks.pos.offset := by
  have h := (passes_skipBlanks c).offset
  omega

/-- A token to come starts where the blanks in front of the cursor end, or later. -/
theorem offset_le_of_mem_scan (c : Cursor) :
    ∀ t ∈ c.scan.tokens, c.skipBlanks.pos.offset ≤ t.pos.offset := by
  induction c using pull_induction with
  | step c ih =>
    intro u hu
    cases hc : c.next.1 with
    | error err => simp [scan_of_error hc] at hu
    | ok t =>
      by_cases hk : t.kind = .eof
      · obtain rfl : u = t := by simpa [scan_of_eof hc hk] using hu
        have hpos := (rest_of_eof hc hk).1
        exact hpos ▸ Int.le_refl _
      · obtain ⟨-, -, hpos, hpass⟩ := passes_of_token hc hk
        rw [scan_of_token hc hk] at hu
        rcases List.mem_cons.mp hu with rfl | hu
        · exact hpos ▸ Int.le_refl _
        · have h₁ := ih t hc hk u hu
          have h₂ := hpass.offset
          have h₃ := c.next.2.offset_le_skipBlanks
          omega

/-- The tokens in front of a byte that starts none start before it. -/
theorem offset_lt_of_error {err : LexError} (h : c.scan.error = some err) :
    ∀ t ∈ c.scan.tokens, t.pos.offset < err.pos.offset := by
  intro t ht
  obtain ⟨ts, d, hr, hend⟩ := c.exists_reads
  rw [hr.scan_eq] at h ht
  rcases hend with ⟨u, hu, hk⟩ | ⟨err', he⟩
  · simp [scan_of_eof hu hk] at h
  · rw [scan_of_error he] at h ht
    obtain rfl : err' = err := Option.some.inj h
    have hlt := hr.offset_lt t (by simpa using ht)
    have hle := d.offset_le_skipBlanks
    rw [(rest_of_error he).1]
    exact Int.lt_of_lt_of_le hlt hle

end Cursor

end StatementLang
