import StatementLang.Proofs.Likeness
import StatementLang.Proofs.Steps

/-!
# Running a text in two parts

A text that runs to its end stops between two tokens, so nothing that follows it can change what it
does. If more text is put behind it, the run does what the first part does and goes on with the
second part from the table, the sink and the count that the first part left; only positions and the
count tell the second part that something stood in front of it.
-/

namespace StatementLang

variable {σ : Type}

namespace Lexeme

theorem EndsBefore.append {l : Lexeme} {rest : Bytes} (h : l.EndsBefore rest) (hr : rest ≠ [])
    (b : Bytes) : l.EndsBefore (rest ++ b) := by
  cases rest with
  | nil => exact absurd rfl hr
  | cons x rest => simpa using h

theorem endsBefore_of_kind {l : Lexeme} (h : l.kind = .semicolon) (rest : Bytes) :
    l.EndsBefore rest := by
  intro b _
  simp [continuedBy, h]

end Lexeme

namespace Cursor

variable {c d : Cursor} {t : Token} {ts : List Token} {w b : Bytes}

def extend (b : Bytes) (c : Cursor) : Cursor := ⟨c.rest ++ b, c.pos⟩

theorem skipBlanks_of_lexeme {l : Lexeme} {rest : Bytes} (hl : l.WellFormed) (hw : Blank w)
    (h : c.rest = w ++ (l.literal ++ rest)) :
    c.skipBlanks = ⟨l.literal ++ rest, c.pos.afterText w⟩ := by
  have hdrop : c.rest.dropWhile isBlank = l.literal ++ rest := by
    rw [h, hl.dropWhile_blank hw]
  have htake : c.rest.takeWhile isBlank = w := by
    have hboth := List.takeWhile_append_dropWhile (p := isBlank) (l := c.rest)
    rw [hdrop] at hboth
    exact List.append_cancel_right (hboth.trans h)
  rw [skipBlanks, hdrop, htake]

/-- More text at the end does not change a pull, unless it makes the token longer. -/
theorem next_extend (h : c.next.1 = .ok t) (hk : t.kind ≠ .eof)
    (he : t.toLexeme.EndsBefore (c.next.2.rest ++ b)) :
    (c.extend b).next = (.ok t, c.next.2.extend b) := by
  obtain ⟨hwf, -, hpos, hpass⟩ := passes_of_token h hk
  have hrest : c.rest = c.rest.takeWhile isBlank ++ (t.literal ++ c.next.2.rest) := by
    rw [← hpass.rest]
    exact (passes_skipBlanks c).rest
  have hlonger : (c.extend b).rest =
      c.rest.takeWhile isBlank ++ (t.literal ++ (c.next.2.rest ++ b)) := by
    calc c.rest ++ b
        = c.rest.takeWhile isBlank ++ (t.literal ++ c.next.2.rest) ++ b := congrArg (· ++ b) hrest
      _ = c.rest.takeWhile isBlank ++ (t.literal ++ (c.next.2.rest ++ b)) := by simp
  have hskip : (c.extend b).skipBlanks = ⟨t.literal ++ (c.next.2.rest ++ b), t.pos⟩ := by
    rw [hpos]
    exact skipBlanks_of_lexeme hwf (blank_takeWhile c.rest) hlonger
  have hnext := next_of_some (c := c.extend b) (l := t.toLexeme)
    (by rw [hskip]; exact lexeme?_append hwf he)
  rw [hnext, hskip]
  simp [advance, extend, hpass.pos, ← hpos]

theorem Reads.extend (h : c.Reads ts d)
    (he : ∀ t ∈ ts.getLast?, t.toLexeme.EndsBefore (d.rest ++ b)) :
    (c.extend b).Reads ts (d.extend b) := by
  induction h with
  | nil => exact .nil _
  | @cons c d t ts ht hk hr ih =>
    have hend : t.toLexeme.EndsBefore (c.next.2.rest ++ b) := by
      cases hr with
      | nil => exact he t (by simp)
      | cons ht' hk' _ =>
        refine (passes_of_token ht hk).2.1.append (fun hnil => ?_) b
        have hlt := length_next_lt ht' hk'
        simp [hnil] at hlt
    have hnext := next_extend ht hk hend
    refine .cons (by rw [hnext]) hk ?_
    rw [hnext]
    refine ih fun u hu => he u ?_
    cases ts with
    | nil => cases hu
    | cons _ _ => simpa using hu

/-- Blanks in front of a text are passed over. -/
theorem next_of_blank (hw : Blank w) (b : Bytes) (p : Position) :
    (⟨w ++ b, p⟩ : Cursor).next = (⟨b, p.afterText w⟩ : Cursor).next := by
  have hskip : (⟨w ++ b, p⟩ : Cursor).skipBlanks = (⟨b, p.afterText w⟩ : Cursor).skipBlanks := by
    simp only [skipBlanks, List.dropWhile_append_of_pos hw, List.takeWhile_append_of_pos hw,
      Position.afterText_append]
  rw [← next_skipBlanks, hskip, next_skipBlanks]

theorem Passes.afterText_rest {text : Bytes} (h : c.Passes text d) :
    c.pos.afterText c.rest = d.pos.afterText d.rest := by
  rw [h.rest, Position.afterText_append, h.pos]

/-- The cursor in its new place once a text has been put in front. -/
def shifted (front : Bytes) (c : Cursor) : Cursor := ⟨c.rest, c.pos.shifted front⟩

theorem skipBlanks_shifted (front : Bytes) (h : 1 ≤ c.pos.line) :
    (c.shifted front).skipBlanks = c.skipBlanks.shifted front := by
  simp only [skipBlanks, shifted, Position.shifted_afterText h]

theorem advance_shifted (front : Bytes) (h : 1 ≤ c.pos.line) (n : Nat) :
    (c.shifted front).advance n = (c.advance n).shifted front := by
  simp only [advance, shifted, Position.shifted_afterText h]

end Cursor

/-- Positions may differ as they do when a text has been put in front; all else is equal. -/
def Likeness.ofFront (front : Bytes) : Likeness σ σ :=
  ⟨fun p q => 1 ≤ p.line ∧ q = p.shifted front, Eq, Eq⟩

/-- A text scans alike in its old place and in its new one. -/
theorem Cursor.scan_shifted (front : Bytes) (c : Cursor) : 1 ≤ c.pos.line →
    c.scan.Alike (Likeness.ofFront (σ := σ) front) (c.shifted front).scan := by
  induction c using pull_induction with
  | step c ih =>
    intro hline
    have hline' : 1 ≤ c.skipBlanks.pos.line := Position.line_pos_afterText hline _
    have hskip := skipBlanks_shifted front hline
    cases hl : lexeme? c.skipBlanks.rest with
    | none =>
      have hn := next_of_none hl
      have hn' := next_of_none (c := c.shifted front) (by rw [hskip]; exact hl)
      rw [scan_of_error (by rw [hn]), scan_of_error (by rw [hn']), hskip]
      exact ⟨.nil, .some ⟨rfl, hline', rfl⟩⟩
    | some l =>
      have hn := next_of_some hl
      have hn' := next_of_some (c := c.shifted front) (by rw [hskip]; exact hl)
      rw [hskip, advance_shifted front hline'] at hn'
      by_cases hk : l.kind = .eof
      · rw [scan_of_eof (by rw [hn]) hk, scan_of_eof (by rw [hn']) hk]
        exact ⟨.cons ⟨rfl, hline', rfl⟩ .nil, .none⟩
      · have hrest := ih _ (by rw [hn]) hk (by rw [hn]; exact Position.line_pos_afterText hline' _)
        rw [hn] at hrest
        have hs := scan_of_token (c := c) (by rw [hn]) hk
        have hs' := scan_of_token (c := c.shifted front) (by rw [hn']) hk
        rw [hs, hs', hn, hn']
        exact ⟨.cons ⟨rfl, hline', rfl⟩ hrest.tokens, hrest.error⟩

/-- The error once a text has been put in front: a program error moves with its position. -/
def RunError.shifted (front : Bytes) : RunError → RunError
  | .program e => .program { e with pos := e.pos.shifted front }
  | .output reason => .output reason

theorem RunError.Alike.eq_shifted {front : Bytes} {e f : RunError}
    (h : e.Alike (Likeness.ofFront (σ := σ) front) f) : f = e.shifted front := by
  cases h with
  | @program e f cause place =>
    obtain ⟨c, p⟩ := e
    obtain ⟨d, q⟩ := f
    obtain ⟨-, rfl⟩ := place
    have hcd : c = d := by
      cases cause with
      | unmatched h => exact congrArg Cause.unmatched h
      | same => rfl
    rw [hcd]
    rfl
  | output reason => rfl

/-- How a run that came out like this ended. -/
def Outcome.execution : Outcome σ Unit → Execution σ
  | .ok _ m => ⟨none, m⟩
  | .fail e m => ⟨some e, m⟩

theorem execute_eq_proceed (sink : Sink σ) (src : Bytes) (symbols : SymbolTable) (state : σ) :
    execute sink src symbols state =
      ((Machine.start src symbols state).proceed sink).execution := rfl

/-- One run does what the other does, but has counted some statements before. -/
structure Execution.Continues (count : Nat) (e f : Execution σ) : Prop where
  error : e.error = f.error
  symbols : e.machine.symbols = f.machine.symbols
  sink : e.machine.sink = f.machine.sink
  statements : e.machine.statements = f.machine.statements + count

namespace Machine

variable {m n : Machine σ} {sink : Sink σ} {t : Token}

theorem loop_resumed (count : Nat) (past : List Event) (t : Token) (m : Machine σ) :
    ((m.resumed count past).loop sink t).execution.Continues count (m.loop sink t).execution := by
  induction hlen : m.left using Nat.strongRecOn generalizing m t with
  | ind k ih =>
    rw [loop_eq, loop_eq]
    split
    · exact ⟨rfl, rfl, rfl, rfl⟩
    · rw [forward_terminated]
      cases hr : m.terminated sink t with
      | ok t' m' => exact ih _ (hlen ▸ left_terminated_lt hr) t' m' rfl
      | fail e m' => exact ⟨rfl, rfl, rfl, rfl⟩

theorem proceed_resumed (count : Nat) (past : List Event) (m : Machine σ) :
    ((m.resumed count past).proceed sink).execution.Continues count
      (m.proceed sink).execution := by
  rw [proceed, proceed, forward_read]
  cases m.read with
  | ok t m => exact loop_resumed count past t m
  | fail e m => exact ⟨rfl, rfl, rfl, rfl⟩

theorem read_congr {c d : Cursor} (h : c.next = d.next) (m : Machine σ) :
    (m.facing c).read = (m.facing d).read := by
  simp only [read, facing, h]

/-- A run to the end goes on with what is put behind its text. The induction is on the text left, of
which each round leaves less. -/
theorem proceed_extend (h : m.proceed sink = .ok () n) (b : Bytes) :
    ∃ past, (m.facing (m.cursor.extend b)).proceed sink =
      Machine.proceed sink ⟨⟨b, m.cursor.pos.afterText m.cursor.rest⟩, n.symbols, n.sink, past,
        n.statements⟩ := by
  induction hlen : m.left using Nat.strongRecOn generalizing m with
  | ind k ih =>
    rcases m.proceed_cases sink with ⟨t, ht, hk, hp⟩ | ⟨m', hround, hp⟩ | ⟨e, m', -, -, hp⟩
    · have hblank : Blank m.cursor.rest :=
        List.dropWhile_eq_nil_iff.mp (Cursor.rest_of_eof ht hk).2
      rw [hp] at h
      injection h with _ hn
      subst hn
      have hread := read_congr (Cursor.next_of_blank hblank b m.cursor.pos) m
      exact ⟨m.events, congrArg (fun x => x.andThen (loop sink)) hread⟩
    · obtain ⟨ts, s, hs, hreads, hface⟩ := round_reads hround
      have hlonger := hreads.extend (b := b) (by
        intro u hu
        rw [List.getLast?_concat] at hu
        obtain rfl : s = u := by simpa using hu
        exact Lexeme.endsBefore_of_kind hs _)
      obtain ⟨past, hgo⟩ := ih _ (hlen ▸ left_round_lt hround) (hp ▸ h) rfl
      obtain ⟨text, hpass, -⟩ := hreads.lexes
      refine ⟨past, ?_⟩
      rw [proceed_of_round (hface _ _ hlonger), hgo, hpass.afterText_rest]
    · rw [hp] at h
      cases h

end Machine

/-- A text runs alike at the start and behind another one, except for the positions of errors. -/
theorem execution_shifted (sink : Sink σ) (front src : Bytes) (symbols : SymbolTable) (state : σ) :
    let here := execute sink src symbols state
    let there := (((Machine.start src symbols state).facing
      ((Cursor.start src).shifted front)).proceed sink).execution
    there.error = here.error.map (RunError.shifted front) ∧
      there.machine.symbols = here.machine.symbols ∧ there.machine.sink = here.machine.sink ∧
      there.machine.statements = here.machine.statements := by
  intro here there
  have hstart : (Machine.start src symbols state).Alike (.ofFront front)
      ((Machine.start src symbols state).facing ((Cursor.start src).shifted front)) :=
    ⟨(Cursor.start src).scan_shifted front (Int.le_refl 1), rfl, rfl, .nil, rfl⟩
  have hrun : here.Alike (.ofFront front) there :=
    Machine.run_alike (Likeness.carries_self rfl sink) hstart
  refine ⟨?_, hrun.machine.symbols.symm, hrun.machine.state.symm, hrun.machine.statements.symm⟩
  have herr := hrun.error
  generalize here.error = e at herr ⊢
  generalize there.error = f at herr ⊢
  cases herr with
  | none => rfl
  | some he => exact congrArg some he.eq_shifted

/-- Two texts in a row: if the first one runs to its end, the run of both does what the first one
does and then what the second one does from the table and the sink that the first one leaves. It
counts the statements of both, and it ends as the second one does: without an error, with the same
reason of the sink, or with the same cause at the position that the first text moves it to. -/
theorem execute_append (sink : Sink σ) (a b : Bytes) (symbols : SymbolTable) (state : σ)
    (ha : (execute sink a symbols state).error = none) :
    let first := execute sink a symbols state
    let second := execute sink b first.machine.symbols first.machine.sink
    let whole := execute sink (a ++ b) symbols state
    whole.machine.symbols = second.machine.symbols ∧
      whole.machine.sink = second.machine.sink ∧
      whole.machine.statements = first.machine.statements + second.machine.statements ∧
      whole.error = second.error.map (RunError.shifted a) := by
  intro first second whole
  cases hp : (Machine.start a symbols state).proceed sink with
  | fail e n => rw [execute_eq_proceed, hp] at ha; cases ha
  | ok u n =>
    have hfirst : first.machine = n := by
      show (execute sink a symbols state).machine = n
      rw [execute_eq_proceed, hp]
      rfl
    obtain ⟨past, hgo⟩ := Machine.proceed_extend hp b
    let behind : Machine σ := (Machine.start b n.symbols n.sink).facing ((Cursor.start b).shifted a)
    have hwhole : whole = ((behind.resumed n.statements past).proceed sink).execution := by
      have hpos : (Cursor.start b).shifted a = ⟨b, Position.start.afterText a⟩ := by
        rw [Cursor.shifted, Cursor.start, Position.shifted_start]
      have hstart : behind.resumed n.statements past =
          ⟨⟨b, Position.start.afterText a⟩, n.symbols, n.sink, past, n.statements⟩ := by
        simp only [behind, hpos, Machine.resumed, Machine.facing, Machine.start, Nat.zero_add,
          List.nil_append]
      rw [hstart]
      exact congrArg Outcome.execution hgo
    have hrest : ((behind.resumed n.statements past).proceed sink).execution.Continues
        n.statements (behind.proceed sink).execution :=
      Machine.proceed_resumed n.statements past behind
    obtain ⟨herr, hsymbols, hsink, hcount⟩ := execution_shifted sink a b n.symbols n.sink
    have hsecond : second = execute sink b n.symbols n.sink := by
      show execute sink b first.machine.symbols first.machine.sink = _
      rw [hfirst]
    rw [hwhole, hsecond, hfirst]
    refine ⟨hrest.symbols.trans hsymbols, hrest.sink.trans hsink, ?_, hrest.error.trans herr⟩
    rw [hrest.statements, Nat.add_comm]
    exact congrArg (n.statements + ·) hcount

/-- The second part fails on its first line, which the end of the first part has moved. -/
theorem execute_append_column :
    let a := utf8 "var a;\na = 4; print a; "
    let b := utf8 " print b;"
    (execute Sink.collector a .empty []).error = none ∧
    (execute Sink.collector (a ++ b) .empty []).error =
      some (.program ⟨.symbol (.undefined (utf8 "b")), ⟨2, 24, 30⟩⟩) ∧
    (execute Sink.collector (a ++ b) .empty []).machine.statements = 3 := by
  intro a b
  have ha : (execute Sink.collector a .empty []).error = none := by decide +kernel
  obtain ⟨-, -, hcount, herr⟩ := execute_append Sink.collector a b .empty [] ha
  refine ⟨ha, herr.trans ?_, hcount.trans ?_⟩
  · decide +kernel
  · decide +kernel

end StatementLang
