import StatementLang.Proofs.Delivery
import StatementLang.Proofs.Failure

/-!
# One lexical error, one report

A source has at most one lexical error, the one that its scan ends with. A run pulls its tokens one
by one, so it comes to the same error, unless something in front of it ends the run first: a token
that the grammar or the table does not allow there, or a value that the sink does not take. And the
report of the error does not tell whether a scan or a run has found it.
-/

namespace StatementLang

variable {σ : Type}

/-- A cause that blames a token is not lexical. -/
theorem Cause.kind_of_blamed {cause : Cause} {l : Lexeme} (h : cause.blamed? = some l) :
    cause.kind = .syntactic ∨ cause.kind = .semantic := by
  cases cause with
  | unmatched r => cases h
  | unexpected expected found => exact .inl rfl
  | symbol error => exact .inr rfl
  | outOfRange digits => exact .inr rfl

namespace Cursor

variable {c d : Cursor} {t : Token} {ts : List Token} {e : ProgramError}

theorem mem_scan_of_next (h : c.next.1 = .ok t) : t ∈ c.scan.tokens := by
  by_cases hk : t.kind = .eof
  · rw [scan_of_eof h hk]
    exact List.mem_singleton_self t
  · rw [scan_of_token h hk]
    exact List.mem_cons_self

/-- What is blamed behind tokens of a text is the byte at which its scan fails, or a token. -/
theorem Reads.blamed (hr : c.Reads ts d) (hb : d.Blames e) :
    (∃ le, c.scan.error = some le ∧ e = .ofLexError le) ∨
    ((e.kind = .syntactic ∨ e.kind = .semantic) ∧ ∃ t ∈ c.scan.tokens, e.pos = t.pos) := by
  rw [hr.scan_eq]
  cases hb with
  | @lexical le h =>
    rw [scan_of_error h]
    exact .inl ⟨le, rfl, rfl⟩
  | @token t cause h hcause =>
    have hmem : t ∈ ts ++ d.scan.tokens := List.mem_append_right ts (mem_scan_of_next h)
    exact .inr ⟨Cause.kind_of_blamed hcause, t, hmem, rfl⟩

end Cursor

/-- A run that fails because of its program blames what its last pull has found. -/
theorem Machine.proceed_blames {sink : Sink σ} {m n : Machine σ} {e : ProgramError}
    (h : m.proceed sink = .fail (.program e) n) :
    ∃ ts d, m.cursor.Reads ts d ∧ d.Blames e ∧ n.feed = d.next.2.scan := by
  have hstart : (m.withSink []).Alike (.following sink m.sink) m :=
    (m.withSink []).alike_withSink (s := m.sink) ⟨trivial, rfl⟩
  rcases proceed_follows hstart with halike | ⟨k, v, reason, j, -, -, hj⟩
  · rw [h] at halike
    generalize hx : (m.withSink []).proceed Sink.collector = x at halike
    cases halike with
    | fail herr hmachine =>
      obtain rfl := herr.eq
      obtain ⟨p, stage, d, hstall⟩ := proceed_stalls collector_reliable hx
      obtain ⟨ts, hts, -⟩ := hstall.reads
      refine ⟨ts, d, hts, hstall.blames, ?_⟩
      rw [← hmachine.feed.eq, feed, hstall.cursor]
  · rw [h] at hj
    cases hj

section

variable {sink : Sink σ} {src : Bytes} {symbols : SymbolTable} {state : σ}

/-- A run fails with the error of the scan, at a token, or because the sink says so. -/
theorem execute_error_cases {e : RunError} (h : (execute sink src symbols state).error = some e) :
    (∃ le, (tokenize src).error = some le ∧ e = .program (.ofLexError le)) ∨
    (∃ reason s v, e = .output reason ∧ (sink.emit s v).2 = some reason) ∨
    ∃ pe t, e = .program pe ∧ (pe.kind = .syntactic ∨ pe.kind = .semantic) ∧
      t ∈ (tokenize src).tokens ∧ pe.pos = t.pos := by
  cases e with
  | program pe =>
    obtain ⟨ts, d, hr, hb, -⟩ := Machine.proceed_blames (proceed_of_error h)
    rcases hr.blamed hb with ⟨le, hle, rfl⟩ | ⟨hkind, t, ht, hpos⟩
    · exact .inl ⟨le, hle, rfl⟩
    · exact .inr (.inr ⟨pe, t, rfl, hkind, ht, hpos⟩)
  | output reason =>
    rcases execute_follows sink src symbols state with
      ⟨hends, -⟩ | ⟨k, v, reason', -, hrefused, herr⟩
    · have herr := hends.error
      rw [h] at herr
      obtain ⟨pe, hpe⟩ := exists_program_error collector_reliable (by rw [← herr]; simp)
      rw [hpe] at herr
      cases herr
    · rw [h] at herr
      cases herr
      have hreason := congrArg Prod.snd hrefused.refused
      exact .inr (.inl ⟨reason, _, v, rfl, hreason⟩)

/-- A source with a lexical error does not run to its end. -/
theorem execute_error_ne_none (h : (tokenize src).error ≠ none) :
    (execute sink src symbols state).error ≠ none := by
  intro herr
  rcases execute_follows sink src symbols state with ⟨hends, -⟩ | ⟨k, v, reason, -, -, hfail⟩
  · have hcollected := hends.error
    rw [herr] at hcollected
    exact h (program_of_execute collector_reliable hcollected.symm).1
  · rw [herr] at hfail
    cases hfail

/-- A lexical error of a run is the one of the scan. -/
theorem eq_ofLexError {pe : ProgramError}
    (h : (execute sink src symbols state).error = some (.program pe)) (hk : pe.kind = .lexical) :
    ∃ le, (tokenize src).error = some le ∧ pe = .ofLexError le := by
  rcases execute_error_cases h with
    ⟨le, hle, he⟩ | ⟨reason, s, v, he, -⟩ | ⟨pe', t, he, hkind, -, -⟩
  · cases he
    exact ⟨le, hle, rfl⟩
  · cases he
  · cases he
    rw [hk] at hkind
    simp at hkind

end

/-- What is said of a file whose scan fails. -/
def LexError.reportIn (path : Bytes) (e : LexError) : Bytes :=
  path ++ utf8 ":" ++ intText e.pos.line ++ utf8 ":" ++ intText e.pos.column ++
    utf8 ": lexical error: no matched token at: " ++ e.remainder

namespace Failure

/-- The failures read the same, by themselves and as reports. -/
structure ReportedLike (f g : Failure) : Prop where
  text : f.text = g.text
  diagnostic : ∀ colored, f.diagnostic colored = g.diagnostic colored

@[simp] theorem location?_scan (e : LexError) :
    (scan e).location? = some (e.pos, utf8 "lexical error: " ++ e.message) := rfl

@[simp] theorem location?_ofLexError (e : LexError) :
    (program (.ofLexError e)).location? = some (e.pos, utf8 "lexical error: " ++ e.message) := by
  have hname : ErrorKind.lexical.name ++ utf8 " error: " = utf8 "lexical error: " := by
    decide +kernel
  show some (e.pos, ErrorKind.lexical.name ++ utf8 " error: " ++ e.message) = _
  rw [hname]

theorem text_inSource_scan (path : Bytes) (e : LexError) :
    (inSource path (.scan e)).text = e.reportIn path := by
  have hsaid : utf8 ": lexical error: no matched token at: " =
      utf8 ":" ++ (utf8 " " ++ (utf8 "lexical error: " ++ utf8 "no matched token at: ")) := by
    decide +kernel
  simp only [text, location?_scan, place, LexError.reportIn, LexError.message, hsaid,
    List.append_assoc]

/-- All that is said of a failure in a source is its place and what it says there. -/
theorem reportedLike_inSource {f g : Failure} {place : Position × Bytes} (path : Bytes)
    (hf : f.location? = some place) (hg : g.location? = some place) :
    (inSource path f).ReportedLike (inSource path g) := by
  constructor
  · simp only [text, hf, hg]
  · intro colored
    simp only [diagnostic, source?, hf, hg]

end Failure

section

variable {files : FileTree} {path src : Bytes} {le : LexError}

/-- A program file is run from an empty table. -/
theorem out_runFile (c : Context) (hread : readSource files path = .ok src) :
    (c.runFile files path).out =
      Sink.written (execute Sink.writer src .empty []).machine.sink := by
  simp only [Context.runFile, hread]
  cases (execute Sink.writer src .empty []).error <;> rfl

theorem failure_runFile (c : Context) (hread : readSource files path = .ok src) {e : RunError}
    (h : (execute Sink.writer src .empty []).error = some e) :
    (c.runFile files path).failure = some (.inSource path (.ofRunError e)) := by
  simp only [Context.runFile, hread, h]

theorem failure_runFile_eq_none (c : Context) (hread : readSource files path = .ok src)
    (h : (execute Sink.writer src .empty []).error = none) :
    (c.runFile files path).failure = none := by
  simp only [Context.runFile, hread, h]

theorem failure_dumpFile (c : Context) (hread : readSource files path = .ok src)
    (h : (tokenize src).error = some le) {format : DumpFormat}
    (hformat : DumpFormat.ofName? (resolveFormat c.settings.output false) = some format) :
    (c.dumpFile files path).failure = some (.inSource path (.scan le)) := by
  simp only [Context.dumpFile, hread, dumpTokens, hformat, Rendering.deliver, h]
  simp

/-- A text with a lexical error has no canonical form. -/
theorem canonical_of_error (h : (tokenize src).error = some le) : canonical src = .error le := by
  rw [canonical]
  split
  · rename_i hscan
    rw [hscan] at h
    cases h
  · rename_i hscan
    rw [hscan] at h
    cases h
    rfl

theorem failure_formatFiles (c : Context) (mode : FormatMode) (rest : List Bytes)
    (hread : readSource files path = .ok src) (h : (tokenize src).error = some le) :
    (c.formatFiles mode files (path :: rest)).failure = some (.inSource path (.scan le)) := by
  simp only [Context.formatFiles, hread, canonical_of_error h, Effect.failing]

end

/-- A lexical error is one error, wherever it is met. The run of a source that scans does not fail
lexically. The run of a source that does not scan fails: lexically, with the position and the text
of the scan's error, or because the sink says so, or at a token in front of that error. A lexical
error of a run reads the same as that of the scan in every report, with its place and the text that
does not scan, so running, checking and formatting a file say the same about it, and so does dumping
it in any format there is. -/
theorem lexical_error_unique (sink : Sink σ) (src : Bytes) (symbols : SymbolTable) (state : σ) :
    let scan := tokenize src
    let run := execute sink src symbols state
    (scan.error = none → ∀ e, run.error = some e → e.kind? ≠ some .lexical) ∧
    (∀ le, scan.error = some le → ∃ e, run.error = some e ∧
      ((∃ pe, e = .program pe ∧ pe.kind = .lexical ∧ pe.pos = le.pos ∧
          pe.message = utf8 "no matched token at: " ++ le.remainder) ∨
        (∃ reason s v, e = .output reason ∧ (sink.emit s v).2 = some reason) ∨
        ∃ pe t, e = .program pe ∧ (pe.kind = .syntactic ∨ pe.kind = .semantic) ∧
          t ∈ scan.tokens ∧ pe.pos = t.pos ∧ t.pos.offset < le.pos.offset)) ∧
    (∀ pe, run.error = some (.program pe) → pe.kind = .lexical →
      ∃ le, scan.error = some le ∧
        ∀ path, (Failure.inSource path (.program pe)).ReportedLike (.inSource path (.scan le)) ∧
          (Failure.inSource path (.program pe)).text = le.reportIn path) ∧
    ∀ (c : Context) (files : FileTree) (path : Bytes) (pe : ProgramError),
      readSource files path = .ok src →
      (execute Sink.writer src .empty []).error = some (.program pe) → pe.kind = .lexical →
      ∃ (le : LexError) (f g : Failure), scan.error = some le ∧ f.text = le.reportIn path ∧
        f.ReportedLike g ∧ (c.runFile files path).failure = some f ∧
        (checkFile files path).failure = some f ∧
        (∀ format, DumpFormat.ofName? (resolveFormat c.settings.output false) = some format →
          (c.dumpFile files path).failure = some g) ∧
        ∀ mode rest, (c.formatFiles mode files (path :: rest)).failure = some g := by
  intro scan run
  have halike : ∀ le path, (Failure.inSource path (.program (.ofLexError le))).ReportedLike
        (.inSource path (.scan le)) ∧
      (Failure.inSource path (.program (.ofLexError le))).text = le.reportIn path := by
    intro le path
    have hlike := Failure.reportedLike_inSource path (Failure.location?_ofLexError le)
      (Failure.location?_scan le)
    exact ⟨hlike, hlike.text.trans (Failure.text_inSource_scan path le)⟩
  refine ⟨?_, ?_, ?_, ?_⟩
  · intro hscan e he hk
    cases e with
    | output reason => cases hk
    | program pe =>
      obtain ⟨le, hle, -⟩ := eq_ofLexError he (Option.some.inj hk)
      rw [hscan] at hle
      cases hle
  · intro le hle
    have hne : run.error ≠ none := execute_error_ne_none (by rw [hle]; simp)
    obtain ⟨e, he⟩ := Option.ne_none_iff_exists'.mp hne
    refine ⟨e, he, ?_⟩
    rcases execute_error_cases he with ⟨le', hle', rfl⟩ | houtput | ⟨pe, t, hpe, hkind, ht, hpos⟩
    · obtain rfl : le = le' := Option.some.inj (hle.symm.trans hle')
      exact .inl ⟨.ofLexError le, rfl, rfl, rfl, rfl⟩
    · exact .inr (.inl houtput)
    · exact .inr (.inr ⟨pe, t, hpe, hkind, ht, hpos, Cursor.offset_lt_of_error hle t ht⟩)
  · intro pe hpe hk
    obtain ⟨le, hle, rfl⟩ := eq_ofLexError hpe hk
    exact ⟨le, hle, halike le⟩
  · intro c files path pe hread hpe hk
    obtain ⟨le, hle, rfl⟩ := eq_ofLexError hpe hk
    have hrun := failure_runFile c hread hpe
    obtain ⟨hlike, htext⟩ := halike le path
    exact ⟨le, _, _, hle, htext, hlike, hrun, (failure_checkFile c files path).trans hrun,
      fun format hformat => failure_dumpFile c hread hle hformat,
      fun mode rest => failure_formatFiles c mode rest hread hle⟩

/-- The byte that starts no token stands where a semicolon should. -/
theorem lexical_error_unique_file :
    let src := utf8 "var a;\na = 4 ?b"
    let clean := utf8 "print b;"
    let path := utf8 "p.xp"
    let files : FileTree := ⟨[], [], [([path], src)]⟩
    let le : LexError := ⟨⟨2, 7, 13⟩, utf8 "?b"⟩
    let undefined : RunError := .program ⟨.symbol (.undefined (utf8 "b")), ⟨1, 7, 6⟩⟩
    let run := fun text => execute Sink.writer text .empty []
    ((tokenize clean).error = none ∧ (run clean).error = some undefined ∧
      undefined.kind? ≠ some .lexical) ∧
    (tokenize src).error = some le ∧ (run src).error ≠ none ∧
    (run src).error = some (.program (.ofLexError le)) ∧
    (∃ le', (tokenize src).error = some le' ∧ ∀ path,
      (Failure.inSource path (.program (.ofLexError le))).ReportedLike
          (.inSource path (.scan le')) ∧
        (Failure.inSource path (.program (.ofLexError le))).text = le'.reportIn path) ∧
    readSource files path = .ok src ∧
    ∃ f g : Failure, f.text = utf8 "p.xp:2:7: lexical error: no matched token at: ?b" ∧
      f.ReportedLike g ∧
      (Context.standalone.runFile files path).failure = some f ∧
      (checkFile files path).failure = some f ∧
      (Context.standalone.dumpFile files path).failure = some g ∧
      (Context.standalone.formatFiles ⟨false, false⟩ files [path]).failure = some g := by
  intro src clean path files le undefined run
  have hclean : (tokenize clean).error = none := by decide +kernel
  have hundefined : (run clean).error = some undefined := by decide +kernel
  have hscan : (tokenize src).error = some le := by decide +kernel
  have herr : (run src).error = some (.program (.ofLexError le)) := by decide +kernel
  have hread : readSource files path = .ok src := by decide +kernel
  have hformat : DumpFormat.ofName?
      (resolveFormat Context.standalone.settings.output false) = some .plain := by decide +kernel
  obtain ⟨-, hfails, hreport, hfiles⟩ := lexical_error_unique Sink.writer src .empty []
  obtain ⟨e, he, -⟩ := hfails le hscan
  obtain ⟨le', f, g, hle', htext, hfg, hrun, hcheck, hdump, hformats⟩ :=
    hfiles Context.standalone files path _ hread herr rfl
  obtain rfl : le = le' := Option.some.inj (hscan.symm.trans hle')
  refine ⟨⟨hclean, hundefined, ?_⟩, hscan, by rw [he]; simp, herr, hreport _ herr rfl, hread, f, g,
    htext.trans (by decide +kernel), hfg, hrun, hcheck, hdump .plain hformat,
    hformats ⟨false, false⟩ []⟩
  exact (lexical_error_unique Sink.writer clean .empty []).1 hclean undefined hundefined

end StatementLang
