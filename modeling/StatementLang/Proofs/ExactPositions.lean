import StatementLang.Proofs.Repetition

/-!
# Positions are exact

A cursor that was started at the front of a text stands somewhere in it, whatever has been pulled.
So the position of every token, of the end of input and of a lexical error counts the text in front
of it: all its bytes, its newlines, and the bytes behind the last newline. Tokens come in the order
of the text and share no byte, and an error of a run stands where the token does that it blames.
-/

namespace StatementLang

/-- The position counts the text before its offset: its newlines, and the bytes behind the last of
them. -/
structure Position.ExactIn (src : Bytes) (p : Position) : Prop where
  nonneg : 0 ≤ p.offset
  within : p.offset ≤ src.length
  line : p.line = 1 + (src.take p.offset.toNat).count newline
  column : p.column = 1 + (lastLine (src.take p.offset.toNat)).length

theorem Position.exactIn_afterText (front rest : Bytes) :
    (Position.start.afterText front).ExactIn (front ++ rest) := by
  have hoffset : (Position.start.afterText front).offset = front.length := by
    rw [afterText_start]
  have htake : (front ++ rest).take (Position.start.afterText front).offset.toNat = front := by
    rw [hoffset, Int.toNat_natCast, List.take_left]
  refine ⟨?_, ?_, ?_, ?_⟩
  · rw [hoffset]
    omega
  · rw [hoffset, List.length_append]
    omega
  · rw [htake, afterText_start]
    exact Int.add_comm _ _
  · rw [htake, afterText_start]
    exact Int.add_comm _ _

/-- Where a pull has found its token or its error. -/
def pulledAt : Except LexError Token → Position
  | .ok t => t.pos
  | .error e => e.pos

namespace Cursor

variable {src : Bytes} {c : Cursor} {r : Except LexError Token} {t : Token}

/-- The cursor was started at the front of the text and has come as far as it stands. -/
def StandsIn (src : Bytes) (c : Cursor) : Prop := ∃ front, (Cursor.start src).Passes front c

theorem standsIn_start (src : Bytes) : (Cursor.start src).StandsIn src := ⟨[], .refl _⟩

theorem StandsIn.exactIn (h : c.StandsIn src) : c.pos.ExactIn src := by
  obtain ⟨front, hpass⟩ := h
  have hsrc : src = front ++ c.rest := hpass.rest
  rw [hpass.pos, hsrc]
  exact Position.exactIn_afterText front c.rest

theorem StandsIn.passes {d : Cursor} {text : Bytes} (h : c.StandsIn src) (hd : c.Passes text d) :
    d.StandsIn src := by
  obtain ⟨front, hpass⟩ := h
  exact ⟨front ++ text, hpass.trans hd⟩

theorem passes_advance (n : Nat) (c : Cursor) : c.Passes (c.rest.take n) (c.advance n) :=
  ⟨(List.take_append_drop n c.rest).symm, rfl⟩

/-- Tokens and errors are found behind the blanks. -/
@[simp] theorem pulledAt_next (c : Cursor) : pulledAt c.next.1 = c.skipBlanks.pos := by
  cases hl : lexeme? c.skipBlanks.rest with
  | none => rw [next_of_none hl]; rfl
  | some l => rw [next_of_some hl]; rfl

/-- A pull never goes back, and it goes over the token that it finds. -/
theorem exists_passes_next (c : Cursor) : ∃ text, c.skipBlanks.Passes text c.next.2 ∧
    ∀ t, c.next.1 = .ok t → t.kind ≠ .eof → t.literal = text ∧ 0 < text.length := by
  cases hl : lexeme? c.skipBlanks.rest with
  | none =>
    rw [next_of_none hl]
    exact ⟨[], .refl _, nofun⟩
  | some l =>
    refine ⟨c.skipBlanks.rest.take l.literal.length, ?_, fun t ht hk => ?_⟩
    · rw [next_of_some hl]
      exact passes_advance _ _
    · obtain ⟨hwf, -, -, hpass⟩ := passes_of_token ht hk
      rw [next_of_some hl] at ht
      obtain rfl : (⟨l, c.skipBlanks.pos⟩ : Token) = t := by injection ht
      rw [hpass.rest, List.take_left]
      exact ⟨rfl, List.length_pos_iff.mpr hwf.literal_ne_nil⟩

theorem StandsIn.next (h : c.StandsIn src) :
    (pulledAt c.next.1).ExactIn src ∧ c.next.2.StandsIn src := by
  have hskip := h.passes (passes_skipBlanks c)
  obtain ⟨text, hpass, -⟩ := c.exists_passes_next
  rw [pulledAt_next]
  exact ⟨hskip.exactIn, hskip.passes hpass⟩

/-- Whatever is pulled stands exactly where it says. -/
theorem StandsIn.pulls (h : c.StandsIn src) (n : Nat) :
    ∀ r ∈ c.pulls n, (pulledAt r).ExactIn src := by
  induction n generalizing c with
  | zero => exact nofun
  | succ n ih =>
    intro r hr
    rcases List.mem_cons.mp hr with rfl | hr
    · exact h.next.1
    · exact ih h.next.2 r hr

/-- What is pulled stands where the cursor does, or behind it. -/
theorem offset_le_of_mem_pulls (n : Nat) (c : Cursor) :
    ∀ r ∈ c.pulls n, c.pos.offset ≤ (pulledAt r).offset := by
  induction n generalizing c with
  | zero => exact nofun
  | succ n ih =>
    intro r hr
    have hskip := c.offset_le_skipBlanks
    rcases List.mem_cons.mp hr with rfl | hr
    · rw [pulledAt_next]
      exact hskip
    · obtain ⟨text, hpass, -⟩ := c.exists_passes_next
      have hnext := hpass.offset
      have hrest := ih c.next.2 r hr
      omega

/-- A token ends before everything that is pulled after it. -/
theorem pairwise_pulls (n : Nat) (c : Cursor) :
    (c.pulls n).Pairwise fun r s => ∀ t, r = .ok t → t.kind ≠ .eof →
      t.pos.offset < (pulledAt s).offset ∧
      t.pos.offset + t.literal.length ≤ (pulledAt s).offset := by
  induction n generalizing c with
  | zero => exact .nil
  | succ n ih =>
    refine List.pairwise_cons.mpr ⟨?_, ih c.next.2⟩
    intro s hs t ht hk
    obtain ⟨text, hpass, htext⟩ := c.exists_passes_next
    obtain ⟨rfl, hpos⟩ := htext t ht hk
    have hat : t.pos = c.skipBlanks.pos := by
      rw [← pulledAt_next, ht]
      rfl
    have hnext := hpass.offset
    have hlater := offset_le_of_mem_pulls n c.next.2 s hs
    rw [hat]
    omega

/-- What a scan finds is pulled. -/
theorem exists_mem_pulls (c : Cursor) :
    (∀ t ∈ c.scan.tokens, ∃ n, .ok t ∈ c.pulls n) ∧
      ∀ e, c.scan.error = some e → ∃ n, .error e ∈ c.pulls n := by
  induction c using pull_induction with
  | step c ih =>
    cases hc : c.next.1 with
    | error e =>
      rw [scan_of_error hc]
      refine ⟨by simp, ?_⟩
      intro le hle
      obtain rfl : e = le := Option.some.inj hle
      exact ⟨1, by simp [hc]⟩
    | ok t =>
      by_cases hk : t.kind = .eof
      · rw [scan_of_eof hc hk]
        refine ⟨?_, by simp⟩
        intro u hu
        obtain rfl := List.mem_singleton.mp hu
        exact ⟨1, by simp [hc]⟩
      · rw [scan_of_token hc hk]
        obtain ⟨htokens, herror⟩ := ih t hc hk
        constructor
        · intro u hu
          rcases List.mem_cons.mp hu with rfl | hu
          · exact ⟨1, by simp [hc]⟩
          · obtain ⟨n, hn⟩ := htokens u hu
            exact ⟨n + 1, List.mem_cons_of_mem _ hn⟩
        · intro e he
          obtain ⟨n, hn⟩ := herror e he
          exact ⟨n + 1, List.mem_cons_of_mem _ hn⟩

end Cursor

/-- The error blames a token of the scan and stands where it does, or it is the error of the scan. -/
def ProgramError.BlamesIn (s : Scan) (e : ProgramError) : Prop :=
  (∃ t ∈ s.tokens, e.cause.blamed? = some t.toLexeme ∧ e.pos = t.pos) ∨
    ∃ le, s.error = some le ∧ e = .ofLexError le

/-- A run blames what it has in front of it. -/
theorem Machine.run_blames {σ : Type} {sink : Sink σ} {m : Machine σ} {e : ProgramError}
    (h : (m.run sink).error = some (.program e)) : e.BlamesIn m.feed := by
  rw [run_eq] at h
  cases hp : m.afresh.proceed sink with
  | ok u n => rw [hp] at h; cases h
  | fail err n =>
    rw [hp] at h
    obtain rfl : err = .program e := Option.some.inj h
    obtain ⟨ts, d, hr, hb, -⟩ := proceed_blames hp
    have hfeed : m.feed = _ := hr.scan_eq
    rw [hfeed]
    cases hb with
    | @lexical le hd => exact .inr ⟨le, by rw [Cursor.scan_of_error hd], rfl⟩
    | @token t cause hd hcause =>
      exact .inl ⟨t, List.mem_append_right ts (Cursor.mem_scan_of_next hd), hcause, rfl⟩

/-- What blames a part of the scan that runs have left blames the scan. -/
theorem ProgramError.BlamesIn.of_afterRuns {σ : Type} {sink : Sink σ} {m : Machine σ} {i : Nat}
    {e : ProgramError} (h : e.BlamesIn (m.afterRuns sink i).feed) : e.BlamesIn m.feed := by
  rcases h with ⟨t, ht, hblamed, hpos⟩ | ⟨le, hle, he⟩
  · refine .inl ⟨t, ?_, hblamed, hpos⟩
    rw [m.feed_afterRuns sink i]
    exact List.mem_append_right _ ht
  · rw [m.error_afterRuns sink i] at hle
    exact .inr ⟨le, hle, he⟩

theorem ProgramError.BlamesIn.exactIn {src : Bytes} {e : ProgramError}
    (h : e.BlamesIn (tokenize src)) : e.pos.ExactIn src := by
  have hstands := Cursor.standsIn_start src
  obtain ⟨htokens, herror⟩ := (Cursor.start src).exists_mem_pulls
  rcases h with ⟨t, ht, -, hpos⟩ | ⟨le, hle, rfl⟩
  · obtain ⟨n, hn⟩ := htokens t ht
    rw [hpos]
    exact hstands.pulls n _ hn
  · obtain ⟨n, hn⟩ := herror le hle
    exact hstands.pulls n _ hn

/-- However many tokens are pulled from a source, each one, the end of input and a lexical error
stand exactly where they say, and no two tokens share a byte. Every error of the program that any
number of runs of the source in a row report stands where the token does that it blames, or is the
lexical error of the source. -/
theorem positions_exact (src : Bytes) :
    (∀ n, ∀ r ∈ (Cursor.start src).pulls n, (pulledAt r).ExactIn src) ∧
    (∀ n, ((Cursor.start src).pulls n).Pairwise fun r s => ∀ t, r = .ok t → t.kind ≠ .eof →
      t.pos.offset < (pulledAt s).offset ∧
      t.pos.offset + t.literal.length ≤ (pulledAt s).offset) ∧
    ∀ {σ : Type} (sink : Sink σ) (symbols : SymbolTable) (state : σ) (n : Nat),
      ∀ x ∈ (Machine.start src symbols state).runs sink n, ∀ e, x.error = some (.program e) →
        e.BlamesIn (tokenize src) ∧ e.pos.ExactIn src := by
  refine ⟨(Cursor.standsIn_start src).pulls, fun n => Cursor.pairwise_pulls n _, ?_⟩
  intro σ sink symbols state n x hx e he
  obtain ⟨i, hi⟩ := List.mem_iff_getElem?.mp hx
  obtain ⟨-, rfl⟩ := Machine.getElem?_runs_iff.mp hi
  have hblames : e.BlamesIn (tokenize src) := (Machine.run_blames he).of_afterRuns
  exact ⟨hblames, hblames.exactIn⟩

/-- Five pulls come to a byte that starts no token and stay there. The first run blames a token on
the second line, the second run the byte behind it. -/
theorem positions_exact_second_line :
    let src := utf8 "print 1\n x?"
    let token : Token := ⟨⟨.ident, utf8 "x"⟩, ⟨2, 2, 9⟩⟩
    let le : LexError := ⟨⟨2, 3, 10⟩, utf8 "?"⟩
    let unfinished : ProgramError := .unexpected .semicolon token
    let pulls := (Cursor.start src).pulls 5
    let runs := (Machine.start src .empty ()).runs Sink.discard 2
    (pulls[2]? = some (.ok token) ∧ token.pos.ExactIn src) ∧
    (pulls[4]? = some (.error le) ∧ le.pos.ExactIn src) ∧
    token.pos.offset + token.literal.length ≤ le.pos.offset ∧
    runs.map (·.error) = [some (.program unfinished), some (.program (.ofLexError le))] ∧
    unfinished.BlamesIn (tokenize src) ∧ (ProgramError.ofLexError le).BlamesIn (tokenize src) := by
  intro src token le unfinished pulls runs
  obtain ⟨hexact, happart, hruns⟩ := positions_exact src
  have htoken : pulls[2]? = some (.ok token) := by decide +kernel
  have herror : pulls[4]? = some (.error le) := by decide +kernel
  have herrors : runs.map (·.error) =
      [some (.program unfinished), some (.program (.ofLexError le))] := by decide +kernel
  have hblames : ∀ e, some (RunError.program e) ∈ runs.map (·.error) → e.BlamesIn (tokenize src) := by
    intro e he
    obtain ⟨x, hx, he⟩ := List.mem_map.mp he
    exact (hruns Sink.discard .empty () 2 x hx e he).1
  refine ⟨⟨htoken, hexact 5 _ (List.mem_of_getElem? htoken)⟩,
    ⟨herror, hexact 5 _ (List.mem_of_getElem? herror)⟩, ?_, herrors,
    hblames _ (by simp [herrors]), hblames _ (by simp [herrors])⟩
  obtain ⟨i, hi⟩ := List.getElem?_eq_some_iff.mp htoken
  obtain ⟨j, hj⟩ := List.getElem?_eq_some_iff.mp herror
  have hpair := List.pairwise_iff_getElem.mp (happart 5) 2 4 i j (by decide) token hi (by decide)
  rw [hj] at hpair
  exact hpair.2

end StatementLang
