import StatementLang.Proofs.Chunks
import StatementLang.Proofs.Pulls

/-!
# Text behind a failure

A run that fails has read some tokens and looks at nothing behind them. So more text at the end of
its source changes nothing, as long as it does not make the last of these tokens longer and this
token is not the end of input. A lexical error shows the text from its place on, to the end; more
text shows up there and nowhere else.
-/

namespace StatementLang

variable {σ : Type}

namespace Cursor

variable {c d : Cursor} {ts : List Token} {s : Bytes}

/-- A byte that starts no token is found again in front of more text. -/
theorem next_extend_of_error {e : LexError} (h : c.next.1 = .error e) (s : Bytes) :
    (c.extend s).next.1 = .error ⟨e.pos, e.remainder ++ s⟩ := by
  obtain ⟨b, rest, hrest, hb, hs⟩ := exists_unmatched h
  have hnext := next_of_blank (blank_takeWhile c.rest) (b :: rest ++ s) c.pos
  rw [← List.append_assoc, ← hrest, ← (passes_skipBlanks c).rest, hrest] at hnext
  have hskip : (⟨b :: rest ++ s, c.skipBlanks.pos⟩ : Cursor).skipBlanks =
      ⟨b :: rest ++ s, c.skipBlanks.pos⟩ := by
    simp [skipBlanks, hb]
  have hfail := next_of_none (c := ⟨b :: rest ++ s, c.skipBlanks.pos⟩)
    (by rw [hskip]; exact lexeme?_eq_none_iff.mpr hs)
  have hlonger : (c.extend s).next = _ := hnext.trans hfail
  rw [hlonger, hskip, (rest_of_error h).1, hrest]

/-- Pulling the same tokens from a text with more at its end. -/
theorem Reads.extend_of_error {e : LexError} (h : c.Reads ts d) (he : d.next.1 = .error e)
    (s : Bytes) : (c.extend s).Reads ts (d.extend s) := by
  have hne : d.rest ≠ [] := by
    intro hnil
    obtain ⟨b, rest, hrest, -, -⟩ := exists_unmatched he
    simp [skipBlanks, hnil] at hrest
  exact h.extend fun t ht => (h.endsBefore t ht).append hne s

theorem Reads.extend_of_blank (h : c.Reads ts d) (hs : ∀ b ∈ s.head?, isBlank b) :
    (c.extend s).Reads ts (d.extend s) := by
  refine h.extend fun t ht => ?_
  cases hrest : d.rest with
  | nil => exact fun b hb => Lexeme.not_continuedBy_of_blank (hs b hb) t.toLexeme
  | cons b rest => simpa [hrest] using h.endsBefore t ht

end Cursor

/-- More text behind a lexical error is part of its remainder. -/
theorem tokenize_append_of_error {src : Bytes} {e : LexError}
    (h : (tokenize src).error = some e) (s : Bytes) :
    tokenize (src ++ s) = ⟨(tokenize src).tokens, some ⟨e.pos, e.remainder ++ s⟩⟩ := by
  obtain ⟨ts, d, hr, hend⟩ := (Cursor.start src).exists_reads
  have hscan : tokenize src = ⟨ts ++ d.scan.tokens, d.scan.error⟩ := hr.scan_eq
  rcases hend with ⟨t, ht, hk⟩ | ⟨err, he⟩
  · rw [hscan, Cursor.scan_of_eof ht hk] at h
    cases h
  · rw [Cursor.scan_of_error he] at hscan
    obtain rfl : err = e := by simpa [hscan] using h
    have hlonger : tokenize (src ++ s) = _ := (hr.extend_of_error he s).scan_eq
    rw [hlonger, hscan, Cursor.scan_of_error (Cursor.next_extend_of_error he s)]

/-- The class of a program error; a value that could not be delivered has none. -/
def RunError.kind? : RunError → Option ErrorKind
  | .program e => some e.kind
  | .output _ => none

/-- The tokens that a run reads, in order. -/
def tokensRead (sink : Sink σ) (src : Bytes) (symbols : SymbolTable) (state : σ) : List Token :=
  ((Machine.start src symbols state).pulls sink).filterMap Except.toOption

/-- The runs leave the same table, sink and count. -/
structure Execution.SameEffect (e f : Execution σ) : Prop where
  symbols : e.machine.symbols = f.machine.symbols
  sink : e.machine.sink = f.machine.sink
  statements : e.machine.statements = f.machine.statements

section

variable {sink : Sink σ} {src s : Bytes} {symbols : SymbolTable} {state : σ}

theorem proceed_of_error {e : RunError} (h : (execute sink src symbols state).error = some e) :
    (Machine.start src symbols state).proceed sink =
      .fail e (execute sink src symbols state).machine := by
  rw [execute_eq_proceed] at h ⊢
  cases hp : (Machine.start src symbols state).proceed sink with
  | ok u n => rw [hp] at h; cases h
  | fail err n =>
    rw [hp] at h
    rw [← Option.some.inj h]
    rfl

theorem map_ok_filterMap {rs : List (Except LexError Token)} (h : ∀ e, .error e ∉ rs) :
    (rs.filterMap Except.toOption).map Except.ok = rs := by
  induction rs with
  | nil => rfl
  | cons r rs ih =>
    have hrest := ih fun e he => h e (by simp [he])
    cases r with
    | ok t => simpa [Except.toOption] using hrest
    | error e => exact absurd List.mem_cons_self (h e)

/-- A run that does not fail lexically has had no failed pull. -/
theorem map_ok_tokensRead {e : RunError} (h : (execute sink src symbols state).error = some e)
    (hk : e.kind? ≠ some .lexical) :
    (tokensRead sink src symbols state).map Except.ok =
      (Machine.start src symbols state).pulls sink := by
  refine map_ok_filterMap fun le hle => hk ?_
  obtain ⟨n, hn⟩ := Machine.proceed_failed hle
  rw [proceed_of_error h] at hn
  injection hn with he
  rw [he]
  rfl

/-- The cursor has passed the tokens read, and nothing behind them. -/
theorem reads_tokensRead {e : RunError} (h : (execute sink src symbols state).error = some e)
    (hk : e.kind? ≠ some .lexical)
    (hlast : ∀ t ∈ (tokensRead sink src symbols state).getLast?, t.kind ≠ .eof) :
    (Cursor.start src).Reads (tokensRead sink src symbols state)
      (execute sink src symbols state).machine.cursor := by
  let m := Machine.start src symbols state
  have hgives : m.cursor.Gives ((tokensRead sink src symbols state).map Except.ok) :=
    map_ok_tokensRead h hk ▸ m.gives_pulls sink
  rw [Machine.cursor_of_fail (proceed_of_error h), ← map_ok_tokensRead h hk, List.length_map]
  exact hgives.reads hlast

/-- Text that starts with a blank does not matter behind a failure that is neither lexical nor
found at the end of input. -/
theorem execute_append_of_read {e : RunError}
    (h : (execute sink src symbols state).error = some e) (hk : e.kind? ≠ some .lexical)
    (hlast : ∀ t ∈ (tokensRead sink src symbols state).getLast?, t.kind ≠ .eof)
    (hs : ∀ b ∈ s.head?, isBlank b) :
    (execute sink (src ++ s) symbols state).error = some e ∧
      (execute sink (src ++ s) symbols state).SameEffect (execute sink src symbols state) := by
  let m := Machine.start src symbols state
  have hreads := (reads_tokensRead h hk hlast).extend_of_blank hs
  have hgives : (Cursor.start (src ++ s)).Gives (m.pulls sink) :=
    map_ok_tokensRead h hk ▸ hreads.gives
  have hrun : execute sink (src ++ s) symbols state = ⟨some e, _⟩ :=
    congrArg Outcome.execution (Machine.proceed_replay (proceed_of_error h) hgives)
  rw [hrun]
  exact ⟨rfl, rfl, rfl, rfl⟩

/-- A lexical error is like a lexical error. -/
theorem RunError.Alike.exists_unmatched {L : Likeness σ σ} {e : ProgramError}
    {x : Option RunError} (h : Option.Rel (RunError.Alike L) (some (.program e)) x)
    (hk : e.kind = .lexical) :
    ∃ r r' q, e.cause = .unmatched r ∧ x = some (.program ⟨.unmatched r', q⟩) ∧
      L.remainder r r' ∧ L.place e.pos q := by
  obtain ⟨cause, pos⟩ := e
  rcases h with ⟨⟨hcause, hplace⟩⟩
  rename_i f
  obtain ⟨cause', pos'⟩ := f
  cases hcause with
  | unmatched hr => exact ⟨_, _, _, rfl, rfl, hr, hplace⟩
  | same hsame => exact absurd hk hsame

/-- A run fails lexically only if the scan of its source does. -/
theorem exists_scan_error {e : ProgramError}
    (h : (execute sink src symbols state).error = some (.program e)) (hk : e.kind = .lexical) :
    ∃ le, (tokenize src).error = some le := by
  let L : Likeness σ σ := ⟨Eq, fun _ _ => ∃ le, (tokenize src).error = some le, Eq⟩
  have hscan : (tokenize src).Alike L (tokenize src) := by
    refine ⟨List.forall₂_same.mpr fun t _ => ⟨rfl, rfl⟩, ?_⟩
    cases herr : (tokenize src).error with
    | none => exact .none
    | some le => exact .some ⟨⟨le, herr⟩, rfl⟩
  have hrun := execute_alike (Likeness.carries_self rfl sink) hscan symbols (s := state) rfl
  obtain ⟨r, r', q, -, -, hle, -⟩ := RunError.Alike.exists_unmatched (h ▸ hrun.error) hk
  exact hle

/-- More text behind a lexical error is seen in its message and nowhere else. -/
theorem execute_append_of_unmatched {e : ProgramError}
    (h : (execute sink src symbols state).error = some (.program e)) (hk : e.kind = .lexical)
    (s : Bytes) :
    (∃ f : ProgramError, (execute sink (src ++ s) symbols state).error = some (.program f) ∧
        f.kind = .lexical ∧ f.pos = e.pos ∧ f.message = e.message ++ s) ∧
      (execute sink (src ++ s) symbols state).SameEffect (execute sink src symbols state) := by
  obtain ⟨le, hle⟩ := exists_scan_error h hk
  let L : Likeness σ σ := ⟨Eq, fun r r' => r' = r ++ s, Eq⟩
  have hscan : (tokenize src).Alike L (tokenize (src ++ s)) := by
    rw [tokenize_append_of_error hle]
    exact ⟨List.forall₂_same.mpr fun t _ => ⟨rfl, rfl⟩, hle ▸ .some ⟨rfl, rfl⟩⟩
  have hrun := execute_alike (Likeness.carries_self rfl sink) hscan symbols (s := state) rfl
  refine ⟨?_, hrun.machine.symbols.symm, hrun.machine.state.symm, hrun.machine.statements.symm⟩
  obtain ⟨r, r', q, hcause, hlonger, rfl, rfl⟩ :=
    RunError.Alike.exists_unmatched (h ▸ hrun.error) hk
  refine ⟨_, hlonger, rfl, rfl, ?_⟩
  simp [ProgramError.message, hcause, Cause.message]

end

/-- Text behind a failure does not matter. If the run of a source fails, but not lexically, and the
last token it read is not the end of input, it fails in the same way with any text behind the
source that starts with a blank. If it fails lexically, it does so at the same place with any text
behind the source, which is seen in the message of the error only. -/
theorem execute_ignores_unread (sink : Sink σ) (src s : Bytes) (symbols : SymbolTable) (state : σ) :
    let run := execute sink src symbols state
    let longer := execute sink (src ++ s) symbols state
    (∀ e, run.error = some e → e.kind? ≠ some .lexical →
      (∀ t ∈ (tokensRead sink src symbols state).getLast?, t.kind ≠ .eof) →
      (∀ b ∈ s.head?, isBlank b) →
      longer.error = some e ∧ longer.SameEffect run) ∧
    (∀ e, run.error = some (.program e) → e.kind = .lexical →
      (∃ f : ProgramError, longer.error = some (.program f) ∧ f.kind = .lexical ∧
        f.pos = e.pos ∧ f.message = e.message ++ s) ∧ longer.SameEffect run) := by
  intro run longer
  exact ⟨fun e h hk hlast hs => execute_append_of_read h hk hlast hs,
    fun e h hk => execute_append_of_unmatched h hk s⟩

theorem execute_ignores_unread_delivery :
    let src := utf8 "print 4; print 7"
    let unmatched := utf8 "var a; a = X"
    let s := utf8 " 8; ?"
    let run := fun text => execute (Sink.failingAt 2) text .empty ⟨0, []⟩
    let e : ProgramError := ⟨.unmatched (utf8 "X"), ⟨1, 12, 11⟩⟩
    ((run src).error = some (.output (utf8 "sink full")) ∧
      (tokensRead (Sink.failingAt 2) src .empty ⟨0, []⟩).getLast? =
        some ⟨⟨.int, utf8 "7"⟩, ⟨1, 16, 15⟩⟩ ∧
      (run (src ++ s)).error = some (.output (utf8 "sink full")) ∧
      (run (src ++ s)).SameEffect (run src)) ∧
    (run unmatched).error = some (.program e) ∧
    (∃ f : ProgramError, (run (unmatched ++ s)).error = some (.program f) ∧ f.kind = .lexical ∧
      f.pos = e.pos ∧ f.message = e.message ++ s) ∧
    (run (unmatched ++ s)).SameEffect (run unmatched) := by
  intro src unmatched s run e
  have herr : (run src).error = some (.output (utf8 "sink full")) := by decide +kernel
  have hlast : (tokensRead (Sink.failingAt 2) src .empty ⟨0, []⟩).getLast? =
      some ⟨⟨.int, utf8 "7"⟩, ⟨1, 16, 15⟩⟩ := by decide +kernel
  have hfail : (run unmatched).error = some (.program e) := by decide +kernel
  have hread := (execute_ignores_unread (Sink.failingAt 2) src s .empty ⟨0, []⟩).1
  have hunmatched := (execute_ignores_unread (Sink.failingAt 2) unmatched s .empty ⟨0, []⟩).2
  refine ⟨⟨herr, hlast, hread _ herr (by simp [RunError.kind?]) ?_ (by decide +kernel)⟩, hfail,
    hunmatched e hfail rfl⟩
  simp [hlast]

end StatementLang
