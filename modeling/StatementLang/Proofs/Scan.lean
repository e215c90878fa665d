import StatementLang.Proofs.Lexing

/-!
# What a cursor still has to give

Everything that reads from a cursor sees it through its pulls, and these are determined by the scan
of the text in front of it: the tokens to come and the failure behind them, if there is one. A pull
takes the first token off the scan; at the end of input and at a failure the scan stays as it is.
-/

namespace StatementLang

/-- What the tokens of a scan say, the end of input included. -/
def Scan.lexemes (s : Scan) : List Lexeme := s.tokens.map Token.toLexeme

namespace Cursor

def scan (c : Cursor) : Scan := scanFrom [] c

theorem scanFrom_eq (done : List Token) (c : Cursor) :
    scanFrom done c = match c.next.1 with
      | .error e => ⟨done.reverse, some e⟩
      | .ok t => if t.kind = .eof then ⟨(t :: done).reverse, none⟩
        else scanFrom (t :: done) c.next.2 := by
  rw [scanFrom]
  split <;> simp_all

/-- A cursor is reached from those with less text behind a token other than the end of input. -/
theorem pull_induction {motive : Cursor → Prop}
    (step : ∀ c, (∀ t, c.next.1 = .ok t → t.kind ≠ .eof → motive c.next.2) → motive c)
    (c : Cursor) : motive c := by
  induction hn : c.rest.length using Nat.strongRecOn generalizing c with
  | ind n ih =>
    refine step c fun t ht hk => ?_
    have hlt := length_next_lt ht hk
    exact ih _ (by omega) _ rfl

theorem scanFrom_append (done : List Token) (c : Cursor) :
    scanFrom done c = ⟨done.reverse ++ c.scan.tokens, c.scan.error⟩ := by
  induction c using pull_induction generalizing done with
  | step c ih =>
    unfold scan
    rw [scanFrom_eq, scanFrom_eq []]
    cases hc : c.next.1 with
    | error e => simp
    | ok t =>
      by_cases hk : t.kind = .eof
      · simp [hk]
      · simp only [hk, if_false]
        rw [ih t hc hk, ih t hc hk [t]]
        simp

theorem scan_of_error {c : Cursor} {e : LexError} (h : c.next.1 = .error e) :
    c.scan = ⟨[], some e⟩ := by
  rw [scan, scanFrom_eq, h]
  rfl

theorem scan_of_eof {c : Cursor} {t : Token} (h : c.next.1 = .ok t) (hk : t.kind = .eof) :
    c.scan = ⟨[t], none⟩ := by
  rw [scan, scanFrom_eq, h]
  simp [hk]

theorem scan_of_token {c : Cursor} {t : Token} (h : c.next.1 = .ok t) (hk : t.kind ≠ .eof) :
    c.scan = ⟨t :: c.next.2.scan.tokens, c.next.2.scan.error⟩ := by
  rw [scan, scanFrom_eq, h]
  simp only [hk, if_false]
  exact scanFrom_append [t] c.next.2

theorem next_of_none {c : Cursor} (h : lexeme? c.skipBlanks.rest = none) :
    c.next = (.error ⟨c.skipBlanks.pos, c.skipBlanks.rest⟩, c.skipBlanks) := by
  simp [next, h]

theorem next_of_some {c : Cursor} {l : Lexeme} (h : lexeme? c.skipBlanks.rest = some l) :
    c.next = (.ok ⟨l, c.skipBlanks.pos⟩, c.skipBlanks.advance l.literal.length) := by
  simp [next, h]

@[simp] theorem skipBlanks_skipBlanks (c : Cursor) : c.skipBlanks.skipBlanks = c.skipBlanks := by
  have hd := List.dropWhile_idempotent isBlank c.rest
  have ht : (c.rest.dropWhile isBlank).takeWhile isBlank = [] := by
    have h := List.takeWhile_append_dropWhile (p := isBlank) (l := c.rest.dropWhile isBlank)
    simpa [hd] using h
  simp only [skipBlanks, hd, ht, Position.afterText_nil]

@[simp] theorem next_skipBlanks (c : Cursor) : c.skipBlanks.next = c.next := by
  simp only [next, skipBlanks_skipBlanks]

@[simp] theorem scan_skipBlanks (c : Cursor) : c.skipBlanks.scan = c.scan := by
  simp only [scan]
  rw [scanFrom_eq, scanFrom_eq [] c, next_skipBlanks]

/-- A token is a lexeme that cannot be longer, or the end of input behind the last blanks. -/
theorem next_ok_cases {c : Cursor} {t : Token} (h : c.next.1 = .ok t) :
    (t.toLexeme = .eof ∧ Blank c.rest ∧ c.next.2 = c.skipBlanks) ∨
    (t.toLexeme.WellFormed ∧ t.toLexeme.EndsBefore c.next.2.rest ∧
      c.rest.dropWhile isBlank = t.literal ++ c.next.2.rest) := by
  cases hl : lexeme? c.skipBlanks.rest with
  | none => rw [next_of_none hl] at h; cases h
  | some l =>
    rw [next_of_some hl] at h ⊢
    obtain rfl : (⟨l, c.skipBlanks.pos⟩ : Token) = t := by injection h
    rcases wellFormed_of_lexeme? hl with ⟨hnil, rfl⟩ | ⟨hwf, rest, hrest, he⟩
    · refine .inl ⟨rfl, ?_, ?_⟩
      · exact List.dropWhile_eq_nil_iff.mp hnil
      · simp [advance]
    · have hdrop : (c.skipBlanks.advance l.literal.length).rest = rest := by
        simp [advance, hrest]
      rw [hdrop]
      exact .inr ⟨hwf, he, hrest⟩

/-- Behind the end of input there is only the end of input. -/
theorem scan_next_of_eof {c : Cursor} {t : Token} (h : c.next.1 = .ok t) (hk : t.kind = .eof) :
    c.next.2.scan = c.scan := by
  rcases next_ok_cases h with ⟨-, -, he⟩ | ⟨hwf, -, -⟩
  · rw [he, scan_skipBlanks]
  · exact absurd hk hwf.kind_ne_eof

/-- A failed pull leaves the failure where it was. -/
theorem scan_next_of_error {c : Cursor} {e : LexError} (h : c.next.1 = .error e) :
    c.next.2.scan = c.scan := by
  cases hl : lexeme? c.skipBlanks.rest with
  | none => rw [next_of_none hl, scan_skipBlanks]
  | some l => rw [next_of_some hl] at h; cases h

/-- A scan that ends without a failure reads the text as lexemes. -/
theorem lexes_of_scan {c : Cursor} (h : c.scan.error = none) :
    ∃ ls, c.scan.lexemes = ls ++ [Lexeme.eof] ∧ Lexes c.rest ls := by
  induction c using pull_induction with
  | step c ih =>
    cases hc : c.next.1 with
    | error e => rw [scan_of_error hc] at h; cases h
    | ok t =>
      rcases next_ok_cases hc with ⟨ht, hblank, -⟩ | ⟨hwf, he, hrest⟩
      · have hk : t.kind = .eof := by rw [ht]
        exact ⟨[], by simp [scan_of_eof hc hk, Scan.lexemes, ht], .blank hblank⟩
      · have hk := hwf.kind_ne_eof
        rw [scan_of_token hc hk] at h ⊢
        obtain ⟨ls, hls, hlex⟩ := ih t hc hk h
        refine ⟨t.toLexeme :: ls, ?_, ?_⟩
        · simpa [Scan.lexemes] using hls
        · rw [← List.takeWhile_append_dropWhile (p := isBlank) (l := c.rest), hrest]
          exact .lexeme (fun b hb => List.mem_takeWhile_imp hb) hwf he hlex

/-- Lexemes that make up a text are found by scanning it. -/
theorem scan_of_lexes {c : Cursor} {ls : List Lexeme} (h : Lexes c.rest ls) :
    c.scan.error = none ∧ c.scan.lexemes = ls ++ [Lexeme.eof] := by
  generalize ht : c.rest = text at h
  induction h generalizing c with
  | blank hw =>
    subst ht
    have hrest : c.skipBlanks.rest = [] := List.dropWhile_eq_nil_iff.mpr hw
    have hn := next_of_some (c := c) (l := .eof) (by rw [hrest]; rfl)
    rw [scan_of_eof (by rw [hn]) rfl]
    exact ⟨rfl, rfl⟩
  | @lexeme w rest l ls hw hl he hr ih =>
    have hrest : c.skipBlanks.rest = l.literal ++ rest := by
      rw [skipBlanks, ht]
      exact hl.dropWhile_blank hw rest
    have hn := next_of_some (c := c) (by rw [hrest]; exact lexeme?_append hl he)
    rw [scan_of_token (by rw [hn]) hl.kind_ne_eof]
    obtain ⟨herr, hlex⟩ := ih (c := c.next.2) (by rw [hn]; simp [advance, hrest])
    exact ⟨herr, by simpa [Scan.lexemes] using hlex⟩

end Cursor

/-- The scanner finds exactly the lexemes that make up a text. -/
theorem tokenize_lexemes_iff {src : Bytes} {ls : List Lexeme} :
    ((tokenize src).error = none ∧ (tokenize src).lexemes = ls ++ [Lexeme.eof]) ↔ Lexes src ls := by
  constructor
  · rintro ⟨herr, hls⟩
    obtain ⟨ms, hms, hlex⟩ := Cursor.lexes_of_scan (c := .start src) herr
    have he : ms ++ [Lexeme.eof] = ls ++ [Lexeme.eof] := hms.symm.trans hls
    rw [← List.append_cancel_right he]
    exact hlex
  · exact fun h => Cursor.scan_of_lexes (c := .start src) h

/-- Texts that stand for the same lexemes scan alike. -/
theorem tokenize_eq_of_lexes {src out : Bytes} {ls : List Lexeme} (h : Lexes src ls)
    (h' : Lexes out ls) :
    (tokenize out).error = none ∧ (tokenize out).lexemes = (tokenize src).lexemes := by
  obtain ⟨-, hls⟩ := tokenize_lexemes_iff.mpr h
  obtain ⟨herr, hls'⟩ := tokenize_lexemes_iff.mpr h'
  exact ⟨herr, hls'.trans hls.symm⟩

theorem lexes_of_tokenize {src : Bytes} (h : (tokenize src).error = none) :
    ∃ ls, (tokenize src).lexemes = ls ++ [Lexeme.eof] ∧ Lexes src ls :=
  Cursor.lexes_of_scan (c := .start src) h

end StatementLang
