import StatementLang.Proofs.Evaluation
import StatementLang.Proofs.Trimming
import StatementLang.Repl.Session

/-!
# Sessions and whole texts

A session that is handed a text line by line cuts it behind the lines that end with a semicolon,
trims the lines and skips blank ones. None of this changes the lexemes, and every cut falls between
two statements. So the session and a run of the whole text evaluate the same program.
-/

namespace StatementLang

/-- The two texts stand for the same lexemes, whatever follows them. -/
def SpelledAlike (a b : Bytes) : Prop := ∀ rest ls, Lexes (a ++ rest) ls ↔ Lexes (b ++ rest) ls

theorem SpelledAlike.lexes_iff {a b : Bytes} (h : SpelledAlike a b) (ls : List Lexeme) :
    Lexes a ls ↔ Lexes b ls := by
  simpa using h [] ls

/-- A text can be cut behind a line. -/
theorem lexes_line_append_iff {a text rest : Bytes} {ns : List Lexeme} :
    Lexes (a ++ line text ++ rest) ns ↔
      ∃ ls ms, ns = ls ++ ms ∧ Lexes (a ++ text) ls ∧ Lexes rest ms := by
  have hcut : a ++ line text ++ rest = (a ++ text) ++ newline :: rest := by simp [line]
  rw [hcut, Lexes.cut_iff (by decide)]

@[simp] theorem lexes_line_iff {a text : Bytes} {ls : List Lexeme} :
    Lexes (a ++ line text) ls ↔ Lexes (a ++ text) ls := by
  rw [line, ← List.append_assoc, Lexes.append_blank_iff (by simp [newline, isBlank])]

/-- Blanks at the end of a line do not matter. -/
theorem spelledAlike_line {a text kept w : Bytes} (ht : text = kept ++ w) (hw : Blank w) :
    SpelledAlike (a ++ line text) (a ++ line kept) := by
  intro rest ls
  rw [lexes_line_append_iff, lexes_line_append_iff, ht]
  simp only [← List.append_assoc, Lexes.append_blank_iff hw]

theorem flatMap_line {lines : List Bytes} (h : lines ≠ []) :
    lines.flatMap line = line (joinWith [newline] lines) := by
  induction lines with
  | nil => exact absurd rfl h
  | cons text lines ih =>
    cases lines with
    | nil => simp [joinWith]
    | cons next lines =>
      rw [List.flatMap_cons, ih (by simp)]
      simp [line, joinWith]

/-- It does not matter whether the last line is ended too. -/
theorem lexes_joinWith_iff (lines : List Bytes) (ls : List Lexeme) :
    Lexes (joinWith [newline] lines) ls ↔ Lexes (lines.flatMap line) ls := by
  cases lines with
  | nil => rfl
  | cons text lines =>
    rw [flatMap_line (by simp)]
    exact (lexes_line_iff (a := [])).symm

def printedText (values : List Int) : Bytes := values.flatMap fun v => line (intText v)

theorem writer_reliable : Sink.writer.Reliable := fun _ _ => rfl

@[simp] theorem written_deliver (pieces : List Bytes) (values : List Int) :
    Sink.written (Sink.writer.deliver pieces values) =
      Sink.written pieces ++ printedText values := by
  induction values generalizing pieces with
  | nil => simp [printedText]
  | cons v values ih =>
    have hstep : Sink.writer.deliver pieces (v :: values) =
        Sink.writer.deliver (line (intText v) :: pieces) values := rfl
    rw [hstep, ih]
    simp [Sink.written, printedText]

section Writing

variable {src : Bytes} {symbols : SymbolTable} {p : Program} {final : Store} {values : List Int}

/-- A text that spells a program with a value runs to its end and writes the values. -/
theorem writes_of_program (h : Lexes src p.lexemes)
    (he : p.eval? symbols.store = some (final, values)) :
    (execute Sink.writer src symbols []).error = none ∧
      Sink.written (execute Sink.writer src symbols []).machine.sink = printedText values ∧
      (execute Sink.writer src symbols []).machine.symbols.store = final := by
  have hp : (tokenize src).lexemes = p.render := (tokenize_lexemes_iff.mpr h).2
  obtain ⟨herr, hstore, hsink, -⟩ := execute_of_program writer_reliable [] hp he
  refine ⟨herr, ?_, hstore⟩
  rw [hsink, written_deliver]
  rfl

/-- A text that runs to its end spells a program with a value. -/
theorem program_of_writes (h : (execute Sink.writer src symbols []).error = none) :
    ∃ (p : Program) (final : Store) (values : List Int),
      Lexes src p.lexemes ∧ p.eval? symbols.store = some (final, values) := by
  obtain ⟨herr, p, final, values, hp, he⟩ := program_of_execute writer_reliable h
  exact ⟨p, final, values, tokenize_lexemes_iff.mp ⟨herr, hp⟩, he⟩

end Writing

namespace Session

variable {colored : Bool} {text : Bytes} {s : Session} {p : Program} {final : Store}
  {values : List Int}

/-- The text that waits for its semicolon once a line has been added. -/
def collected (text : Bytes) (s : Session) : Bytes := s.pending ++ line (trimRight isTrailing text)

def extend (text : Bytes) (s : Session) : Session :=
  { s with
    pending := s.collected text
    lines := s.lines + 1
    start := if s.pending.isEmpty then s.lines + 1 else s.start }

@[simp] theorem collected_ne_nil (text : Bytes) (s : Session) : s.collected text ≠ [] := by
  simp [collected, line]
@[simp] theorem pending_extend (text : Bytes) (s : Session) :
    (s.extend text).pending = s.collected text := rfl
@[simp] theorem lines_extend (text : Bytes) (s : Session) :
    (s.extend text).lines = s.lines + 1 := rfl
@[simp] theorem start_extend_of_idle (h : s.pending = []) (text : Bytes) :
    (s.extend text).start = s.lines + 1 := by simp [extend, h]
@[simp] theorem start_extend_of_waiting (h : s.pending ≠ []) (text : Bytes) :
    (s.extend text).start = s.start := by simp [extend, h]

/-- A line that is no command is skipped, or added to the pending text; a semicolon at its end makes
the session execute what it has. -/
theorem handle_cases (colored : Bool) (s : Session)
    (hd : ¬ (s.pending = [] ∧ (trimSpace text).head? = some 46)) :
    (s.pending = [] ∧ trimSpace text = [] ∧
      s.handle colored text = (silent, { s with lines := s.lines + 1 })) ∨
    (¬ (s.pending = [] ∧ trimSpace text = []) ∧
      s.handle colored text = if (trimSpace text).getLast? = some 59 then
        (s.extend text).cancel.execute colored (s.collected text) (s.extend text).start
      else (silent, s.extend text)) := by
  by_cases hp : s.pending = []
  · by_cases ht : trimSpace text = []
    · exact .inl ⟨hp, ht, by simp [handle, hp, ht]⟩
    · have hdot : (trimSpace text).head? ≠ some 46 := fun h => hd ⟨hp, h⟩
      refine .inr ⟨fun h => ht h.2, ?_⟩
      simp [handle, collect, extend, collected, hp, ht, hdot]
  · refine .inr ⟨fun h => hp h.1, ?_⟩
    simp [handle, collect, extend, collected, hp]

theorem isBlank_of_isTrailing {b : UInt8} (h : isTrailing b) : isBlank b := by
  simp only [isTrailing, Bool.or_eq_true, beq_iff_eq] at h
  simp only [isBlank, Bool.or_eq_true, beq_iff_eq]
  tauto

/-- What waits is spelled as the lines were. -/
theorem spelledAlike_collected (text : Bytes) (s : Session) :
    SpelledAlike (s.pending ++ line text) (s.collected text) := by
  obtain ⟨w, ht, hw⟩ := trimRight_append isTrailing text
  exact spelledAlike_line ht fun b hb => isBlank_of_isTrailing (hw b hb)

/-- A blank line adds nothing where nothing waits. -/
theorem spelledAlike_skipped (hp : s.pending = []) (hb : Blank text) :
    SpelledAlike (s.pending ++ line text) s.pending := by
  intro rest ls
  have hblank : Blank (line text) := by simp [line, hb, newline, isBlank]
  rw [hp, List.nil_append, List.nil_append, Lexes.prepend_blank_iff hblank]

theorem execute_of_program (colored : Bool) {src : Bytes} (first : Nat)
    (h : Lexes src p.lexemes) (he : p.eval? s.symbols.store = some (final, values)) :
    (s.execute colored src first).1.out = printedText values ∧
      (s.execute colored src first).1.err = [] ∧
      (s.execute colored src first).2.symbols.store = final := by
  obtain ⟨herr, hout, hstore⟩ := writes_of_program h he
  refine ⟨hout, ?_, hstore⟩
  simp only [execute, herr]

/-- A session that reports no error has executed a program with a value. -/
theorem program_of_execute {src : Bytes} {first : Nat}
    (h : (s.execute colored src first).1.err = []) :
    ∃ (p : Program) (final : Store) (values : List Int),
      Lexes src p.lexemes ∧ p.eval? s.symbols.store = some (final, values) := by
  refine program_of_writes ?_
  simp only [execute] at h
  split at h
  · assumption
  · simp [line] at h

/-- What waits is no program, unless nothing waits. -/
def Idle (s : Session) : Prop := ∀ p : Program, Lexes s.pending p.lexemes → s.pending = []

/-- A line without a semicolon at its end completes no program. -/
theorem idle_extend (hs : s.Idle) (hne : ¬ (s.pending = [] ∧ trimSpace text = []))
    (hl : (trimSpace text).getLast? ≠ some 59) : (s.extend text).Idle := by
  intro p hp
  exfalso
  have hline : Lexes (s.pending ++ line text) p.lexemes :=
    ((s.spelledAlike_collected text).lexes_iff p.lexemes).mpr hp
  rw [lexes_line_iff] at hline
  by_cases hb : Blank text
  · rw [Lexes.append_blank_iff hb] at hline
    exact hne ⟨hs p hline, trimSpace_of_blank hb⟩
  · obtain ⟨front, l, hlast, hiff⟩ := hline.exists_last_of_line hb
    exact hl (hiff.mpr (Program.eq_semicolon_of_last hlast))

/-- A line with a semicolon at its end cuts a program between two statements. -/
theorem exists_append_of_line {rest : Bytes} (h : Lexes (s.pending ++ line text ++ rest) p.lexemes)
    (hl : (trimSpace text).getLast? = some 59) :
    ∃ q r : Program, p = q ++ r ∧ Lexes (s.collected text) q.lexemes ∧ Lexes rest r.lexemes := by
  obtain ⟨ls, ms, hp, hls, hms⟩ := lexes_line_append_iff.mp h
  have hb : ¬ Blank text := by
    intro hb
    rw [trimSpace_of_blank hb] at hl
    cases hl
  obtain ⟨front, l, rfl, hiff⟩ := hls.exists_last_of_line hb
  obtain rfl := hiff.mp hl
  rw [List.append_assoc] at hp
  obtain ⟨q, r, rfl, hq, rfl⟩ := Program.exists_append_of_semicolon hp
  refine ⟨q, r, rfl, ?_, hms⟩
  rw [← (s.spelledAlike_collected text).lexes_iff, lexes_line_iff, hq]
  exact hls

def handleAll (colored : Bool) : List Bytes → Session → List Reply × Session
  | [], s => ([], s)
  | text :: lines, s =>
    let (r, s) := s.handle colored text
    let (rs, s) := handleAll colored lines s
    (r :: rs, s)

theorem handleAll_cons (colored : Bool) (text : Bytes) (lines : List Bytes) (s : Session) :
    s.handleAll colored (text :: lines) =
      ((s.handle colored text).1 :: ((s.handle colored text).2.handleAll colored lines).1,
        ((s.handle colored text).2.handleAll colored lines).2) := rfl

/-- The replies show the values and nothing else; nothing waits, and the table holds the store. -/
structure Conveys (answer : List Reply × Session) (final : Store) (values : List Int) : Prop where
  out : answer.1.flatMap Reply.out = printedText values
  calm : ∀ r ∈ answer.1, r.err = [] ∧ r.quit = false
  pending : answer.2.pending = []
  store : answer.2.symbols.store = final

theorem Conveys.cons {answer : List Reply × Session} {r : Reply} {first more : List Int}
    (h : Conveys answer final more) (hout : r.out = printedText first)
    (hcalm : r.err = [] ∧ r.quit = false) :
    Conveys (r :: answer.1, answer.2) final (first ++ more) where
  out := by simp [hout, h.out, printedText]
  calm := by simpa [hcalm] using h.calm
  pending := h.pending
  store := h.store

theorem Conveys.cons_silent {answer : List Reply × Session} (h : Conveys answer final values) :
    Conveys (silent :: answer.1, answer.2) final values := by
  have hout : silent.out = printedText [] := rfl
  exact h.cons hout ⟨rfl, rfl⟩

/-- Lines that spell a program are answered with its values. -/
theorem handleAll_of_program (colored : Bool) {lines : List Bytes} (hs : s.Idle)
    (h : Lexes (s.pending ++ lines.flatMap line) p.lexemes)
    (he : p.eval? s.symbols.store = some (final, values)) :
    Conveys (s.handleAll colored lines) final values := by
  induction lines generalizing s p values with
  | nil =>
    have hp : s.pending = [] := hs p (by simpa using h)
    have hnil : p.lexemes = [] := h.eq_nil_of_blank (by simp [hp])
    obtain rfl := Program.eq_nil_of_lexemes hnil
    obtain ⟨rfl, rfl⟩ : s.symbols.store = final ∧ [] = values := by simpa using he
    exact ⟨rfl, by simp [handleAll], hp, rfl⟩
  | cons text lines ih =>
    rw [List.flatMap_cons, ← List.append_assoc] at h
    have hscan : Scannable text := fun b hb => h.blank_or_solid b (by simp [line, hb])
    rw [handleAll_cons]
    rcases s.handle_cases colored (fun h => head?_trimSpace_ne_dot hscan h.2) with
      ⟨hp, ht, hstep⟩ | ⟨hne, hstep⟩
    · rw [hstep]
      have hidle : Idle { s with lines := s.lines + 1 } := hs
      refine (ih hidle ?_ he).cons_silent
      exact (spelledAlike_skipped hp (blank_of_trimSpace hscan ht) _ _).mp h
    · split at hstep
      · rename_i hl
        rw [hstep]
        obtain ⟨q, r, rfl, hq, hr⟩ := exists_append_of_line h hl
        obtain ⟨mid, first, more, heq, her, rfl⟩ := Program.eval?_append_eq_some_iff.mp he
        obtain ⟨hout, herr, rfl⟩ := execute_of_program colored (s := (s.extend text).cancel)
          (s.extend text).start hq heq
        have hidle : ((s.extend text).cancel.execute colored (s.collected text)
            (s.extend text).start).2.Idle := fun _ _ => rfl
        refine (ih hidle hr her).cons hout ⟨herr, ?_⟩
        rfl
      · rename_i hl
        rw [hstep]
        refine (ih (idle_extend hs hne hl) ?_ he).cons_silent
        exact (s.spelledAlike_collected text _ _).mp h

/-- Lines that are answered without an error, none of them a command, spell a program with a
value. -/
theorem program_of_handleAll {lines : List Bytes}
    (hd : ∀ text ∈ lines, (trimSpace text).head? ≠ some 46)
    (hb : ∀ text ∈ lines, trimSpace text = [] → Blank text)
    (herr : ∀ r ∈ (s.handleAll colored lines).1, r.err = [])
    (hp : (s.handleAll colored lines).2.pending = []) :
    ∃ (p : Program) (final : Store) (values : List Int),
      Lexes (s.pending ++ lines.flatMap line) p.lexemes ∧
      p.eval? s.symbols.store = some (final, values) := by
  induction lines generalizing s with
  | nil =>
    have hpend : s.pending = [] := hp
    exact ⟨[], s.symbols.store, [], .blank (by simp [hpend]), rfl⟩
  | cons text lines ih =>
    rw [handleAll_cons] at herr hp
    rw [List.forall_mem_cons] at hd hb herr
    rw [List.flatMap_cons, ← List.append_assoc]
    rcases s.handle_cases colored (fun h => hd.1 h.2) with ⟨hpend, ht, hstep⟩ | ⟨-, hstep⟩
    · rw [hstep] at herr hp
      obtain ⟨p, final, values, hlex, he⟩ := ih hd.2 hb.2 herr.2 hp
      exact ⟨p, final, values, (spelledAlike_skipped hpend (hb.1 ht) _ _).mpr hlex, he⟩
    · split at hstep
      · rw [hstep] at herr hp
        obtain ⟨q, mid, first, hq, heq⟩ := program_of_execute herr.1
        obtain ⟨-, -, hmid⟩ := execute_of_program colored (s := (s.extend text).cancel)
          (s.extend text).start hq heq
        obtain ⟨r, final, more, hr, her⟩ := ih hd.2 hb.2 herr.2 hp
        rw [hmid] at her
        refine ⟨q ++ r, final, first ++ more, ?_, ?_⟩
        · rw [Program.lexemes_append, lexes_line_append_iff]
          refine ⟨_, _, rfl, ?_, hr⟩
          rw [← lexes_line_iff, (s.spelledAlike_collected text).lexes_iff]
          exact hq
        · exact Program.eval?_append_eq_some_iff.mpr ⟨mid, first, more, heq, her, rfl⟩
      · rw [hstep] at herr hp
        obtain ⟨p, final, values, hlex, he⟩ := ih hd.2 hb.2 herr.2 hp
        exact ⟨p, final, values, (s.spelledAlike_collected text _ _).mpr hlex, he⟩

end Session

/-- Lines that spell a program do the same as one text and one by one. -/
theorem session_of_program (colored : Bool) {lines : List Bytes} {p : Program} {final : Store}
    {values : List Int} (h : Lexes (lines.flatMap line) p.lexemes)
    (he : p.eval? SymbolTable.empty.store = some (final, values)) :
    let whole := execute Sink.writer (joinWith [newline] lines) .empty []
    let answer := Session.fresh.handleAll colored lines
    whole.error = none ∧ answer.1.flatMap Reply.out = Sink.written whole.machine.sink ∧
      (∀ r ∈ answer.1, r.err = [] ∧ r.quit = false) ∧
      answer.2.pending = [] ∧ answer.2.symbols = whole.machine.symbols := by
  intro whole answer
  have hidle : Session.fresh.Idle := fun _ _ => rfl
  have hans : Session.Conveys answer final values :=
    Session.handleAll_of_program colored hidle h he
  obtain ⟨herr, hout, hstore⟩ := writes_of_program ((lexes_joinWith_iff lines p.lexemes).mpr h) he
  exact ⟨herr, hans.out.trans hout.symm, hans.calm, hans.pending,
    SymbolTable.store_injective (hans.store.trans hstore.symm)⟩

/-- If the lines joined to one text run to their end, a new session that is handed them one by one
writes the same, reports nothing, goes on, keeps nothing waiting and ends with the same table. The
converse holds of lines that are no commands, if those that count as white space are made of spaces,
tabs and carriage returns. -/
theorem session_agrees_with_execute (colored : Bool) (lines : List Bytes) :
    let whole := execute Sink.writer (joinWith [newline] lines) .empty []
    let answer := Session.fresh.handleAll colored lines
    (whole.error = none →
      answer.1.flatMap Reply.out = Sink.written whole.machine.sink ∧
      (∀ r ∈ answer.1, r.err = [] ∧ r.quit = false) ∧
      answer.2.pending = [] ∧ answer.2.symbols = whole.machine.symbols) ∧
    ((∀ text ∈ lines, (trimSpace text).head? ≠ some 46) →
      (∀ text ∈ lines, trimSpace text = [] → ∀ b ∈ text, b = 32 ∨ b = 9 ∨ b = 13) →
      (∀ r ∈ answer.1, r.err = []) → answer.2.pending = [] →
      whole.error = none ∧ Sink.written whole.machine.sink = answer.1.flatMap Reply.out ∧
        whole.machine.symbols = answer.2.symbols) := by
  intro whole answer
  constructor
  · intro herr
    obtain ⟨p, final, values, hp, he⟩ := program_of_writes herr
    exact (session_of_program colored ((lexes_joinWith_iff lines p.lexemes).mp hp) he).2
  · intro hd hb herr hpend
    have hblank : ∀ text ∈ lines, trimSpace text = [] → Blank text := by
      intro text hmem ht b hin
      rcases hb text hmem ht b hin with rfl | rfl | rfl <;> decide
    obtain ⟨p, final, values, hp, he⟩ := Session.program_of_handleAll hd hblank herr hpend
    obtain ⟨hrun, hout, -, -, hsymbols⟩ := session_of_program colored hp he
    exact ⟨hrun, hout.symm, hsymbols.symm⟩

/-- Statements may be spread over lines, with blank lines between them and inside them. -/
theorem session_agrees_with_execute_spread :
    let lines := [[], utf8 "var a;\t", utf8 " ", utf8 "a", utf8 "\t", utf8 "= 5; print a;print",
      utf8 "7 ;\r"]
    let whole := execute Sink.writer (joinWith [newline] lines) .empty []
    let answer := Session.fresh.handleAll false lines
    (whole.error = none ∧ answer.1.flatMap Reply.out = Sink.written whole.machine.sink ∧
      answer.2.pending = [] ∧ answer.2.symbols = whole.machine.symbols) ∧
    (∀ text ∈ lines, (trimSpace text).head? ≠ some 46) ∧
    (∀ text ∈ lines, trimSpace text = [] → ∀ b ∈ text, b = 32 ∨ b = 9 ∨ b = 13) ∧
    (∀ r ∈ answer.1, r.err = []) ∧ Sink.written whole.machine.sink = utf8 "5\n7\n" := by
  intro lines whole answer
  have h := session_agrees_with_execute false lines
  have hrun : whole.error = none := by decide +kernel
  have hout : answer.1.flatMap Reply.out = utf8 "5\n7\n" := by decide +kernel
  obtain ⟨hsame, hcalm, hpend, hsymbols⟩ := h.1 hrun
  have herr : ∀ r ∈ answer.1, r.err = [] := fun r hr => (hcalm r hr).1
  have hdot : ∀ text ∈ lines, (trimSpace text).head? ≠ some 46 := by decide +kernel
  have hblank : ∀ text ∈ lines, trimSpace text = [] → ∀ b ∈ text, b = 32 ∨ b = 9 ∨ b = 13 := by
    decide +kernel
  obtain ⟨-, hwritten, -⟩ := h.2 hdot hblank herr hpend
  exact ⟨⟨hrun, hsame, hpend, hsymbols⟩, hdot, hblank, herr, hwritten.trans hout⟩

end StatementLang
