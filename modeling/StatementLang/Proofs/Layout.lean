import StatementLang.Layout
import StatementLang.Proofs.Scan

/-!
# Layout keeps the lexemes

Every token put on a page leaves a text that stands for the lexemes of the tokens so far: inside a
statement a space keeps neighbours apart, a semicolon runs into nothing, and a fresh line starts
behind a newline. Trailing newlines are blanks. So the canonical form of a source scans to the
lexemes of the source, whether or not these make a program.
-/

namespace StatementLang

namespace Page

/-- The text on a page, before its end is trimmed. -/
def written (p : Page) : Bytes := p.pieces.reverse.flatten

/-- The text of the page stands for the lexemes, and a fresh line is the first one or follows a
newline. -/
structure Holds (p : Page) (ls : List Lexeme) : Prop where
  lexes : Lexes p.written ls
  fresh : p.fresh → p.written = [] ∨ ∃ front, p.written = front ++ [newline]

theorem blank_holds : Page.blank.Holds [] := ⟨.blank blank_nil, fun _ => .inl rfl⟩

variable {lineAfter : Int → Int} {p : Page} {t : Token} {ls : List Lexeme}

theorem gap_blank : Blank (p.gap lineAfter t) := by
  simp only [gap]
  repeat' split
  all_goals simp [isBlank, newline, space]

/-- The gap keeps a token apart from the text before it. -/
theorem gap_seam (h : p.Holds ls) (ht : t.toLexeme.WellFormed) (tail : Bytes) :
    Lexes.Seam p.written (p.gap lineAfter t ++ (t.literal ++ tail)) := by
  by_cases hf : p.fresh
  · rcases h.fresh hf with he | ⟨front, he⟩
    · rw [he]
      exact .of_nil
    · rw [he]
      exact .of_last (by decide)
  · by_cases hk : t.kind = .semicolon
    · have hl : t.literal = [59] := by
        obtain ⟨⟨kind, literal⟩, pos⟩ := t
        cases hk
        cases ht
        rfl
      simp only [gap, hf, hk, hl, if_true, Bool.false_eq_true, if_false, List.nil_append,
        List.cons_append]
      exact .of_head (by decide)
    · simp only [gap, hf, hk, Bool.false_eq_true, if_false, List.cons_append]
      exact .of_head (by decide)

theorem written_put : (p.put lineAfter t).written =
    p.written ++ (p.gap lineAfter t ++
      (t.literal ++ if t.kind = .semicolon then [newline] else [])) := by
  by_cases hk : t.kind = .semicolon
  · simp [put, hk, written]
  · simp [put, hk, written]

/-- Putting a token on a page adds its lexeme. -/
theorem put_holds (h : p.Holds ls) (ht : t.toLexeme.WellFormed) :
    (p.put lineAfter t).Holds (ls ++ [t.toLexeme]) := by
  have hpiece : ∀ tail, Blank tail → t.toLexeme.EndsBefore tail →
      Lexes (p.written ++ (p.gap lineAfter t ++ (t.literal ++ tail))) (ls ++ [t.toLexeme]) := by
    intro tail hb he
    exact h.lexes.append (.lexeme gap_blank ht he (.blank hb)) (gap_seam h ht tail)
  by_cases hk : t.kind = .semicolon
  · refine ⟨?_, fun _ => .inr ⟨p.written ++ (p.gap lineAfter t ++ t.literal), ?_⟩⟩
    · rw [written_put, if_pos hk]
      exact hpiece [newline] (by simp [isBlank, newline]) (by simp [Lexeme.continuedBy, hk])
    · simp [written_put, hk]
  · refine ⟨?_, fun hf => by simp [put, hk] at hf⟩
    rw [written_put, if_neg hk]
    exact hpiece [] blank_nil (by simp)

theorem foldl_put_holds {ts : List Token} (h : p.Holds ls)
    (ht : ∀ t ∈ ts, t.toLexeme.WellFormed) :
    (ts.foldl (Page.put lineAfter) p).Holds (ls ++ ts.map Token.toLexeme) := by
  induction ts generalizing p ls with
  | nil => simpa using h
  | cons t ts ih =>
    have hput : (p.put lineAfter t).Holds (ls ++ [t.toLexeme]) := put_holds h (ht t (by simp))
    have hrest := ih hput (fun u hu => ht u (by simp [hu]))
    simpa using hrest

/-- The end of a page has no lexeme in it. -/
theorem Holds.text_lexes (h : p.Holds ls) : Lexes p.text ls := by
  obtain ⟨w, hw, hn⟩ := trimRight_append (· == newline) p.written
  have hb : Blank w := by
    intro b hb
    obtain rfl := beq_iff_eq.mp (hn b hb)
    decide
  have hbody : Lexes (trimRight (· == newline) p.written) ls := by
    rw [← Lexes.append_blank_iff hb, ← hw]
    exact h.lexes
  simp only [text]
  split
  · rename_i he
    rw [← List.isEmpty_iff.mp he]
    exact hbody
  · exact (Lexes.append_blank_iff (by simp [isBlank, newline])).mpr hbody

end Page

/-- The end of input ends the page. -/
theorem layoutWith_concat (lineAfter : Int → Int) {ts : List Token} {t : Token}
    (ht : ∀ t ∈ ts, t.toLexeme.WellFormed) (he : t.kind = .eof) :
    layoutWith lineAfter (ts ++ [t]) = (ts.foldl (Page.put lineAfter) .blank).text := by
  have htake : (ts ++ [t]).takeWhile (fun t => t.kind ≠ .eof) = ts := by
    rw [List.takeWhile_append_of_pos (by
      intro u hu
      exact decide_eq_true (ht u hu).kind_ne_eof)]
    simp [he]
  rw [layoutWith, htake]

/-- A page of scanned tokens stands for their lexemes. -/
theorem layoutWith_lexes (lineAfter : Int → Int) {ts : List Token} {t : Token}
    (ht : ∀ t ∈ ts, t.toLexeme.WellFormed) (he : t.kind = .eof) :
    Lexes (layoutWith lineAfter (ts ++ [t])) (ts.map Token.toLexeme) := by
  rw [layoutWith_concat lineAfter ht he]
  exact (Page.foldl_put_holds Page.blank_holds ht).text_lexes

/-- A source that scans has a canonical form. -/
theorem canonical_of_scan {src : Bytes} (h : (tokenize src).error = none) :
    canonical src = .ok (layout (tokenize src).tokens) := by
  rw [canonical]
  split
  · rename_i tokens he
    rw [he]
  · rename_i tokens e he
    rw [he] at h
    cases h

/-- The canonical form of a source stands for the same lexemes as the source. -/
theorem canonical_lexes {src : Bytes} (h : (tokenize src).error = none) :
    ∃ out ls, canonical src = .ok out ∧ Lexes src ls ∧ Lexes out ls := by
  obtain ⟨ls, hls, hlex⟩ := lexes_of_tokenize h
  obtain ⟨ts, us, htu, hts, hus⟩ := List.map_eq_append_iff.mp hls
  obtain ⟨t, rfl, ht⟩ := List.map_eq_singleton_iff.mp hus
  have hwf : ∀ t ∈ ts, t.toLexeme.WellFormed := by
    intro u hu
    exact hlex.wellFormed _ (by rw [← hts]; exact List.mem_map_of_mem hu)
  have hout := layoutWith_lexes (· + 1) hwf (t := t) (by rw [ht])
  refine ⟨layout (tokenize src).tokens, ls, canonical_of_scan h, hlex, ?_⟩
  rw [htu, ← hts]
  exact hout

/-- Laying out a source without a lexical error gives a text of the same lexemes in the same
order, the end of input included. -/
theorem canonical_keeps_lexemes {src : Bytes} (h : (tokenize src).error = none) :
    ∃ out, canonical src = .ok out ∧ (tokenize out).error = none ∧
      (tokenize out).lexemes = (tokenize src).lexemes := by
  obtain ⟨out, ls, hout, hsrc, hlex⟩ := canonical_lexes h
  obtain ⟨herr, hls⟩ := tokenize_eq_of_lexes hsrc hlex
  exact ⟨out, hout, herr, hls⟩

/-- Words, numbers and keywords that touch each other and an unfinished statement. -/
theorem canonical_keeps_lexemes_touching :
    (tokenize (utf8 "varvar 12ab;;x\n\n\n;y")).error = none ∧
    ∃ out, canonical (utf8 "varvar 12ab;;x\n\n\n;y") = .ok out ∧ (tokenize out).error = none ∧
      (tokenize out).lexemes = (tokenize (utf8 "varvar 12ab;;x\n\n\n;y")).lexemes := by
  have h : (tokenize (utf8 "varvar 12ab;;x\n\n\n;y")).error = none := by decide +kernel
  exact ⟨h, canonical_keeps_lexemes h⟩

end StatementLang
