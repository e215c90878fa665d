import StatementLang.Proofs.Completion
import StatementLang.Proofs.Sessions
import StatementLang.Repl.Input

/-!
# Where a session reports errors

A session counts every line that it is handed, and what waits for its semicolon are the last of
these lines, without the white space at their ends. So a place in the text that a session executes
is a place in the lines as they were typed, and a report names it by the number of the line in the
session and the column in that line.
-/

namespace StatementLang

/-- The lines without the spaces, tabs and carriage returns at their ends. -/
def keptText (lines : List Bytes) : Bytes :=
  (lines.map (trimRight fun b => b = 32 ∨ b = 9 ∨ b = 13)).flatMap line

theorem keptText_eq (lines : List Bytes) :
    keptText lines = (lines.map (trimRight Session.isTrailing)).flatMap line := by
  have hcut : (fun b : UInt8 => decide (b = 32 ∨ b = 9 ∨ b = 13)) = Session.isTrailing := by
    funext b
    simp [Session.isTrailing, Bool.or_assoc, beq_eq_decide]
  rw [keptText, hcut]

@[simp] theorem keptText_append (lines more : List Bytes) :
    keptText (lines ++ more) = keptText lines ++ keptText more := by
  simp [keptText]

@[simp] theorem keptText_singleton (text : Bytes) :
    keptText [text] = line (trimRight Session.isTrailing text) := by
  simp [keptText_eq]

namespace Cursor.Blames

variable {c : Cursor} {e : ProgramError}

end Cursor.Blames

namespace Cursor

variable {c : Cursor} {t : Token} {more behind : Bytes}

end Cursor

section Stalled

variable {σ : Type} {sink : Sink σ} {symbols : SymbolTable} {state : σ} {n : Machine σ}
  {e : ProgramError} {p : Program} {stage : Stage} {d : Cursor} {lines : List Bytes}

end Stalled

theorem Stage.lexemes_ne_nil {stage : Stage} (h : stage ≠ .boundary) : stage.lexemes ≠ [] := by
  cases stage with
  | boundary => exact absurd rfl h
  | complete s => exact s.lexemes_ne_nil
  | _ => simp

/-- A run fails at the end of its text only in the middle of a statement. -/
theorem Machine.Stalls.exists_last {σ : Type} {sink : Sink σ} {src : Bytes} {symbols : SymbolTable}
    {state : σ} {n : Machine σ} {e : ProgramError} {p : Program} {stage : Stage} {d : Cursor}
    (h : (Machine.start src symbols state).Stalls sink n e p stage d)
    (hrest : d.skipBlanks.rest = []) :
    ∃ ls l, Lexes src (ls ++ [l]) ∧ l.kind ≠ .semicolon := by
  obtain ⟨front, hsrc, -, hlex⟩ := h.exists_front
  rw [hrest, List.append_nil] at hsrc
  have hstage : stage ≠ .boundary := by
    intro hb
    have heof : lexeme? d.skipBlanks.rest = some .eof := by rw [hrest]; rfl
    have hnext : d.next.1 = .ok ⟨.eof, d.skipBlanks.pos⟩ := by rw [Cursor.next_of_some heof]
    exact h.started hb _ hnext rfl
  rcases List.eq_nil_or_concat' stage.lexemes with hnil | ⟨ls, l, hl⟩
  · exact absurd hnil (Stage.lexemes_ne_nil hstage)
  · have hmem : l ∈ stage.lexemes := by simp [hl]
    refine ⟨p.lexemes ++ ls, l, ?_, Stage.kind_of_mem hmem⟩
    rw [hsrc, List.append_assoc, ← hl]
    exact hlex

def SessionInput.typed : SessionInput → List Bytes
  | .line text => [text]
  | .interrupt => []
  | .bell => []

namespace Session

variable {colored : Bool} {text : Bytes} {s : Session} {lines : List Bytes}

def step (colored : Bool) (s : Session) : SessionInput → Session
  | .line text => (s.handle colored text).2
  | .interrupt => s.cancel
  | .bell => s

def after (colored : Bool) (inputs : List SessionInput) : Session :=
  inputs.foldl (step colored) fresh

/-- The session has been handed the lines, and what waits are the last of them, from the line
`start` on. -/
structure Tracks (s : Session) (lines : List Bytes) : Prop where
  count : s.lines = lines.length
  waiting : s.pending ≠ [] → 1 ≤ s.start ∧ s.start ≤ lines.length ∧
    s.pending = keptText (lines.drop (s.start - 1))

theorem Tracks.of_idle (hc : s.lines = lines.length) (hp : s.pending = []) : s.Tracks lines :=
  ⟨hc, fun h => absurd hp h⟩

theorem tracks_fresh : fresh.Tracks [] := .of_idle rfl rfl

/-- A line that is kept waits with those before it, or is the first to wait. -/
theorem Tracks.extend (h : s.Tracks lines) (text : Bytes) :
    (s.extend text).Tracks (lines ++ [text]) := by
  refine ⟨by simp [h.count], fun _ => ?_⟩
  by_cases hp : s.pending = []
  · rw [start_extend_of_idle hp, h.count]
    refine ⟨by omega, by simp, ?_⟩
    rw [Nat.add_sub_cancel, List.drop_left]
    simp [collected, hp]
  · obtain ⟨hlo, hhi, hkept⟩ := h.waiting hp
    rw [start_extend_of_waiting hp, List.length_append]
    refine ⟨hlo, by omega, ?_⟩
    rw [List.drop_append_of_le_length (by omega), keptText_append, keptText_singleton, ← hkept]
    rfl

/-- A command leaves the count of lines and what waits as they are. -/
theorem tracks_command (h : s.Tracks lines) (text : Bytes) : (s.command text).2.Tracks lines := by
  rw [command]
  split_ifs <;> exact ⟨h.count, h.waiting⟩

theorem handle_of_command (hp : s.pending = []) (hd : (trimSpace text).head? = some 46) :
    s.handle colored text = { s with lines := s.lines + 1 }.command (trimSpace text) := by
  have hne : trimSpace text ≠ [] := by
    intro h
    rw [h] at hd
    cases hd
  simp [handle, hp, hd, hne]

/-- Every line counts, whatever the session makes of it. -/
theorem Tracks.handle (h : s.Tracks lines) (colored : Bool) (text : Bytes) :
    (s.handle colored text).2.Tracks (lines ++ [text]) := by
  have hcount : s.lines + 1 = (lines ++ [text]).length := by simp [h.count]
  by_cases hd : s.pending = [] ∧ (trimSpace text).head? = some 46
  · have hread : Tracks { s with lines := s.lines + 1 } (lines ++ [text]) :=
      .of_idle hcount hd.1
    rw [handle_of_command hd.1 hd.2]
    exact tracks_command hread _
  · rcases s.handle_cases colored hd with ⟨hp, -, hstep⟩ | ⟨-, hstep⟩
    · rw [hstep]
      exact .of_idle hcount hp
    · rw [hstep]
      split
      · exact .of_idle hcount rfl
      · exact h.extend text

theorem Tracks.step (h : s.Tracks lines) (colored : Bool) (i : SessionInput) :
    (s.step colored i).Tracks (lines ++ i.typed) := by
  cases i with
  | line text => exact h.handle colored text
  | interrupt =>
    rw [SessionInput.typed, List.append_nil]
    exact .of_idle h.count rfl
  | bell =>
    rw [SessionInput.typed, List.append_nil]
    exact h

/-- Over any inputs a session keeps track of the lines among them. -/
theorem tracks_after (colored : Bool) (inputs : List SessionInput) :
    (after colored inputs).Tracks (inputs.flatMap SessionInput.typed) := by
  induction inputs using List.reverseRecOn with
  | nil => exact tracks_fresh
  | append_singleton inputs i ih =>
    rw [List.flatMap_append, List.flatMap_singleton, after, List.foldl_append]
    exact ih.step colored i

def reportText (colored : Bool) (row column : Int) (e : ProgramError) : Bytes :=
  Style.error.render colored (utf8 "Error:") ++ utf8 " " ++
    Style.position.render colored
      (utf8 "<stdin>:" ++ intText row ++ utf8 ":" ++ intText column ++ utf8 ":") ++
    utf8 " " ++ (e.kind.name ++ utf8 " error: " ++ e.message)

theorem err_execute_of_none {src : Bytes} {first : Nat}
    (h : (StatementLang.execute Sink.writer src s.symbols []).error = none) :
    (s.execute colored src first).1.err = [] := by
  simp only [execute, h]

theorem err_execute_of_program {src : Bytes} {first : Nat} {e : ProgramError}
    (h : (StatementLang.execute Sink.writer src s.symbols []).error = some (.program e)) :
    (s.execute colored src first).1.err =
      line (reportText colored (e.pos.line + (first - 1 : Nat)) e.pos.column e) := by
  have hsource : utf8 "<stdin>" ++ utf8 ":" = utf8 "<stdin>:" := by decide +kernel
  simp only [execute, h, reportText, ← hsource]
  rfl

end Session

end StatementLang
