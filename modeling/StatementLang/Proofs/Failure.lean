import StatementLang.Proofs.Evaluation
import StatementLang.Proofs.Steps

/-!
# Where a run fails

A run that fails because of its program has executed some statements with their semicolons and has
come some way into the next one. How far is its stage: what stands between the last semicolon and
the token or byte that the error blames. A statement that is not complete has had no effect, one
that only waits for its semicolon has had all of it.
-/

namespace StatementLang

variable {σ α β : Type}

/-- What the blamed token says; a lexical error blames no token. -/
def Cause.blamed? : Cause → Option Lexeme
  | .unmatched _ => none
  | .unexpected _ found => some found
  | .symbol (.redefined x) => some ⟨.ident, x⟩
  | .symbol (.undefined x) => some ⟨.ident, x⟩
  | .outOfRange digits => some ⟨.int, digits⟩

/-- How far a run has come into a statement. -/
inductive Stage where
  | boundary
  | declaring
  | assigning (x : Bytes)
  | valuing (x : Bytes)
  | printing
  | complete (s : Statement)
  deriving DecidableEq, Repr

namespace Stage

def lexemes : Stage → List Lexeme
  | .boundary => []
  | .declaring => [⟨.var, varWord⟩]
  | .assigning x => [⟨.ident, x⟩]
  | .valuing x => [⟨.ident, x⟩, ⟨.assign, [61]⟩]
  | .printing => [⟨.print, printWord⟩]
  | .complete s => s.lexemes

/-- The effect so far. To come as far as its target, an assignment needs it declared. -/
def eval? (store : Store) : Stage → Option (Store × List Int)
  | .boundary => some (store, [])
  | .declaring => some (store, [])
  | .assigning x => if x ∈ store then some (store, []) else none
  | .valuing x => if x ∈ store then some (store, []) else none
  | .printing => some (store, [])
  | .complete s => s.eval? store

@[simp] theorem lexemes_boundary : boundary.lexemes = [] := rfl

@[simp] theorem lexemes_declaring : declaring.lexemes = [⟨.var, varWord⟩] := rfl

@[simp] theorem lexemes_assigning (x : Bytes) : (assigning x).lexemes = [⟨.ident, x⟩] := rfl

@[simp] theorem lexemes_valuing (x : Bytes) :
    (valuing x).lexemes = [⟨.ident, x⟩, ⟨.assign, [61]⟩] := rfl

@[simp] theorem lexemes_printing : printing.lexemes = [⟨.print, printWord⟩] := rfl

@[simp] theorem lexemes_complete (s : Statement) : (complete s).lexemes = s.lexemes := rfl

@[simp] theorem eval?_assigning {store : Store} {x : Bytes} :
    (assigning x).eval? store = if x ∈ store then some (store, []) else none := rfl

@[simp] theorem eval?_valuing {store : Store} {x : Bytes} :
    (valuing x).eval? store = if x ∈ store then some (store, []) else none := rfl

end Stage

/-- The error is about what a cursor has in front of it. -/
inductive Cursor.Blames (c : Cursor) : ProgramError → Prop
  | lexical {e : LexError} (h : c.next.1 = .error e) : Blames c (.ofLexError e)
  | token {t : Token} {cause : Cause} (h : c.next.1 = .ok t)
      (hb : cause.blamed? = some t.toLexeme) : Blames c ⟨cause, t.pos⟩

theorem Cursor.Blames.pos {c : Cursor} {e : ProgramError} (h : c.Blames e) :
    e.pos = c.skipBlanks.pos := by
  cases h with
  | lexical h => rw [(rest_of_error h).1]; rfl
  | @token t cause h hb =>
    by_cases hk : t.kind = .eof
    · exact (rest_of_eof h hk).1
    · exact (passes_of_token h hk).2.2.1

theorem Cursor.Blames.unexpected {c : Cursor} {t : Token} (h : c.next.1 = .ok t)
    (expected : Expected) : c.Blames (.unexpected expected t) := .token h rfl

theorem Outcome.andThen_eq_fail_iff {x : Outcome σ α} {f : α → Machine σ → Outcome σ β}
    {e : RunError} {n : Machine σ} :
    x.andThen f = .fail e n ↔ x = .fail e n ∨ ∃ a m, x = .ok a m ∧ f a m = .fail e n := by
  cases x with
  | ok a m => simp
  | fail e' m => simp

theorem SymbolTable.lookup_eq_error {t : SymbolTable} {x : Bytes} {err : SymbolError}
    (h : t.lookup x = .error err) : err = .undefined x := by
  rw [lookup] at h
  split at h
  · cases h
  · injection h with h
    exact h.symm

theorem SymbolTable.declare_eq_error {t : SymbolTable} {x : Bytes} {err : SymbolError}
    (h : t.declare x = .error err) : err = .redefined x := by
  rw [declare] at h
  split at h
  · injection h with h
    exact h.symm
  · cases h

/-- A token without a value is blamed itself. -/
theorem blames_of_evaluate {c : Cursor} {t : Token} {symbols : SymbolTable} {e : ProgramError}
    (ht : c.next.1 = .ok t) (h : evaluate symbols t = .error e) : c.Blames e := by
  obtain ⟨⟨kind, literal⟩, pos⟩ := t
  cases kind with
  | ident =>
    simp only [evaluate] at h
    split at h
    · cases h
    · rename_i err herr
      injection h with h
      subst h
      rw [SymbolTable.lookup_eq_error herr]
      exact .token ht rfl
  | int =>
    simp only [evaluate] at h
    split at h
    · cases h
    · injection h with h
      subst h
      exact .token ht rfl
  | _ =>
    injection h with h
    subst h
    exact .unexpected ht .expression

namespace Machine

variable {sink : Sink σ} {m n : Machine σ} {t : Token} {e : ProgramError} {stage : Stage}
  {d : Cursor} {p : Program}

@[simp] theorem complain_eq_fail_iff {e' : ProgramError} :
    (m.complain e' : Outcome σ α) = .fail (.program e) n ↔ e' = e ∧ m = n := by
  simp [complain]

theorem read_fails (h : m.read = .fail (.program e) n) : m.cursor.Blames e ∧ n = m.behind := by
  cases hc : m.cursor.next.1 with
  | ok u => rw [read_of_ok hc] at h; cases h
  | error le =>
    rw [read_of_error hc] at h
    injection h with he hn
    injection he with he
    exact ⟨he ▸ .lexical hc, hn.symm⟩

theorem expression_fails (h : m.expression = .fail (.program e) n) :
    m.cursor.Blames e ∧ n = m.behind := by
  rcases Outcome.andThen_eq_fail_iff.mp h with hr | ⟨t, m', hr, h⟩
  · exact read_fails hr
  · obtain ⟨ht, rfl⟩ := read_eq_ok_iff.mp hr
    split at h
    · cases h
    · rename_i he
      obtain ⟨rfl, rfl⟩ := complain_eq_fail_iff.mp h
      exact ⟨blames_of_evaluate ht he, rfl⟩

theorem declaration_fails (h : m.declaration = .fail (.program e) n) :
    m.cursor.Blames e ∧ n = m.behind := by
  rcases Outcome.andThen_eq_fail_iff.mp h with hr | ⟨t, m', hr, h⟩
  · exact read_fails hr
  · obtain ⟨ht, rfl⟩ := read_eq_ok_iff.mp hr
    split at h
    · rename_i hk
      split at h
      · cases h
      · rename_i err herr
        obtain ⟨rfl, rfl⟩ := complain_eq_fail_iff.mp h
        rw [SymbolTable.declare_eq_error herr]
        exact ⟨.token ht (by rw [Cause.blamed?, ← hk]), rfl⟩
    · obtain ⟨rfl, rfl⟩ := complain_eq_fail_iff.mp h
      exact ⟨.unexpected ht .identifier, rfl⟩

theorem printing_fails {pos : Position} (h : m.printing sink pos = .fail (.program e) n) :
    m.cursor.Blames e ∧ n = m.behind := by
  rcases Outcome.andThen_eq_fail_iff.mp h with h | ⟨v, m', -, h⟩
  · exact expression_fails h
  · split at h <;> cases h

/-- The run from `m` to `n` executed `p` and failed at a stage of the next statement: the tokens
in front of `d` spell just that, and the error blames what `d` pulls next, the last pull of the
run. -/
structure Stalls (sink : Sink σ) (m n : Machine σ) (e : ProgramError) (p : Program) (stage : Stage)
    (d : Cursor) : Prop where
  reads : ∃ ts, m.cursor.Reads ts d ∧ ts.map Token.toLexeme = p.lexemes ++ stage.lexemes
  blames : d.Blames e
  started : stage = .boundary → ∀ t, d.next.1 = .ok t → t.kind ≠ .eof
  effect : ∃ mid first more, p.eval? m.symbols.store = some (mid, first) ∧
    stage.eval? mid = some (n.symbols.store, more) ∧ n.sink = sink.deliver m.sink (first ++ more)
  statements : n.statements = m.statements + p.length
  cursor : n.cursor = d.next.2

/-- An incomplete statement has moved the cursor and nothing else. -/
theorem Stalls.of_incomplete {ts : List Token} (hr : m.cursor.Reads ts d)
    (hl : ts.map Token.toLexeme = stage.lexemes) (hb : d.Blames e)
    (hs : stage = .boundary → ∀ t, d.next.1 = .ok t → t.kind ≠ .eof)
    (he : stage.eval? m.symbols.store = some (m.symbols.store, [])) :
    m.Stalls sink (m.facing d.next.2) e [] stage d :=
  ⟨⟨ts, hr, hl⟩, hb, hs, ⟨m.symbols.store, [], [], rfl, he, rfl⟩, rfl, rfl⟩

theorem assignment_stalls (sink : Sink σ) (ht : m.cursor.next.1 = .ok t) (hk : t.kind = .ident)
    (h : m.behind.assignment t = .fail (.program e) n) :
    ∃ stage d, m.Stalls sink n e [] stage d := by
  obtain ⟨⟨kind, x⟩, pos⟩ := t
  obtain rfl : kind = .ident := hk
  have hne : TokenKind.ident ≠ .eof := by decide
  simp only [assignment] at h
  split at h
  · rename_i err herr
    obtain ⟨rfl, rfl⟩ := complain_eq_fail_iff.mp h
    rw [SymbolTable.lookup_eq_error herr]
    refine ⟨.boundary, m.cursor, .of_incomplete (.nil _) rfl (.token ht rfl) ?_ rfl⟩
    intro _ u hu
    rw [ht] at hu
    injection hu with hu
    exact hu ▸ hne
  · rename_i old hold
    have hx : x ∈ m.symbols.store :=
      Finmap.mem_of_lookup_eq_some (SymbolTable.lookup_eq_ok_iff.mp hold)
    have hreads : m.cursor.Reads [⟨⟨.ident, x⟩, pos⟩] m.behind.cursor := .single ht hne
    have hassigning : ∀ e', m.behind.cursor.Blames e' →
        m.Stalls sink m.behind.behind e' [] (.assigning x) m.behind.cursor := by
      intro e' hb
      exact .of_incomplete hreads rfl hb (by simp) (by simp [hx])
    rcases Outcome.andThen_eq_fail_iff.mp h with hr | ⟨a, m', hr, h⟩
    · obtain ⟨hb, rfl⟩ := read_fails hr
      exact ⟨_, _, hassigning e hb⟩
    · obtain ⟨ha, rfl⟩ := read_eq_ok_iff.mp hr
      split at h
      · rename_i hak
        have hane : a.kind ≠ .eof := by rw [hak]; decide
        have halex : a.toLexeme = ⟨.assign, [61]⟩ :=
          (Cursor.passes_of_token ha hane).1.eq_of_kind .assign hak rfl
        rcases Outcome.andThen_eq_fail_iff.mp h with h | ⟨v, m', -, h⟩
        · obtain ⟨hb, rfl⟩ := expression_fails h
          exact ⟨.valuing x, m.behind.behind.cursor,
            .of_incomplete (hreads.trans (.single ha hane)) (by simp [halex]) hb
              (by simp) (by simp [hx])⟩
        · cases h
      · obtain ⟨rfl, rfl⟩ := complain_eq_fail_iff.mp h
        exact ⟨_, _, hassigning _ (.unexpected ha .assignment)⟩

/-- A statement that fails has come to a stage before its end. -/
theorem statement_stalls (ht : m.cursor.next.1 = .ok t) (hne : t.kind ≠ .eof)
    (h : m.behind.statement sink t = .fail (.program e) n) :
    ∃ stage d, m.Stalls sink n e [] stage d := by
  have hwf := (Cursor.passes_of_token ht hne).1
  have hreads : m.cursor.Reads [t] m.behind.cursor := .single ht hne
  simp only [statement] at h
  split at h
  · rename_i hk
    obtain ⟨hb, rfl⟩ := declaration_fails h
    exact ⟨.declaring, m.behind.cursor, .of_incomplete hreads
      (by simp [hwf.eq_of_kind .var hk rfl]) hb (by simp) rfl⟩
  · rename_i hk
    exact assignment_stalls sink ht hk h
  · rename_i hk
    obtain ⟨hb, rfl⟩ := printing_fails h
    exact ⟨.printing, m.behind.cursor, .of_incomplete hreads
      (by simp [hwf.eq_of_kind .print hk rfl]) hb (by simp) rfl⟩
  · obtain ⟨rfl, rfl⟩ := complain_eq_fail_iff.mp h
    refine ⟨.boundary, m.cursor, .of_incomplete (.nil _) rfl (.unexpected ht .statement) ?_ rfl⟩
    intro _ u hu
    rw [ht] at hu
    injection hu with hu
    exact hu ▸ hne

/-- A statement that succeeds has read its lexemes and had its effect. -/
theorem statement_performs (hs : sink.Reliable) (ht : t.toLexeme.WellFormed)
    (h : m.statement sink t = .ok () n) :
    ∃ (s : Statement) (ts : List Token) (values : List Int), m.cursor.Reads ts n.cursor ∧
      t.toLexeme :: ts.map Token.toLexeme = s.lexemes ∧
      s.eval? m.symbols.store = some (n.symbols.store, values) ∧
      n.sink = sink.deliver m.sink values ∧ n.statements = m.statements := by
  obtain ⟨ts, hts, -⟩ := tokenwise_statement sink t h
  obtain ⟨s, rest, hlex, hv⟩ := lexemes_of_statement ht h
  obtain ⟨⟨store, values⟩, hv⟩ := Option.isSome_iff_exists.mp hv
  obtain ⟨n', hn', hy⟩ := statement_of_lexemes hs hlex hv
  obtain rfl : n = n' := by
    rw [h] at hn'
    injection hn'
  refine ⟨s, ts, values, hts, ?_, by rw [hy.store]; exact hv, hy.sink, hy.statements⟩
  have hall : m.feed.lexemes = ts.map Token.toLexeme ++ rest := by
    rw [← hy.lexemes]
    exact hts.lexemes_eq
  rw [hall, ← List.cons_append] at hlex
  exact List.append_cancel_right hlex

theorem round_stalls (hs : sink.Reliable) (hne : ∀ t, m.cursor.next.1 = .ok t → t.kind ≠ .eof)
    (h : m.round sink = .fail (.program e) n) : ∃ stage d, m.Stalls sink n e [] stage d := by
  rcases Outcome.andThen_eq_fail_iff.mp h with hopen | ⟨⟨⟩, k, hopen, h⟩
  · rcases Outcome.andThen_eq_fail_iff.mp hopen with hr | ⟨t, m', hr, hst⟩
    · obtain ⟨hb, rfl⟩ := read_fails hr
      exact ⟨.boundary, m.cursor, .of_incomplete (.nil _) rfl hb (fun _ => hne) rfl⟩
    · obtain ⟨ht, rfl⟩ := read_eq_ok_iff.mp hr
      exact statement_stalls ht (hne t ht) hst
  · obtain ⟨t, m', hr, hst⟩ := Outcome.andThen_eq_ok_iff.mp hopen
    obtain ⟨ht, rfl⟩ := read_eq_ok_iff.mp hr
    obtain ⟨s, ts, values, hts, hlex, hv, hsink, hcount⟩ :=
      statement_performs hs (Cursor.passes_of_token ht (hne t ht)).1 hst
    have hstall : ∀ e', k.cursor.Blames e' →
        m.Stalls sink k.behind e' [] (.complete s) k.cursor := by
      intro e' hb
      exact ⟨⟨t :: ts, .cons ht (hne t ht) hts, hlex⟩, hb, by simp,
        ⟨m.symbols.store, [], values, rfl, hv, hsink⟩, hcount, rfl⟩
    rcases Outcome.andThen_eq_fail_iff.mp h with hr' | ⟨u, k', hr', h⟩
    · obtain ⟨hb, rfl⟩ := read_fails hr'
      exact ⟨_, _, hstall e hb⟩
    · obtain ⟨hu, rfl⟩ := read_eq_ok_iff.mp hr'
      split at h
      · cases h
      · obtain ⟨rfl, rfl⟩ := complain_eq_fail_iff.mp h
        exact ⟨_, _, hstall _ (.unexpected hu .semicolon)⟩

/-- A round that succeeds has executed a statement and read its semicolon. -/
theorem round_performs (hs : sink.Reliable) (h : m.round sink = .ok () n) :
    ∃ (s : Statement) (ts : List Token) (values : List Int), m.cursor.Reads ts n.cursor ∧
      ts.map Token.toLexeme = s.lexemes ++ [.semicolon] ∧
      s.eval? m.symbols.store = some (n.symbols.store, values) ∧
      n.sink = sink.deliver m.sink values ∧ n.statements = m.statements + 1 := by
  obtain ⟨⟨⟩, k, hopen, h⟩ := Outcome.andThen_eq_ok_iff.mp h
  obtain ⟨t, m', hr, hst⟩ := Outcome.andThen_eq_ok_iff.mp hopen
  obtain ⟨ht, rfl⟩ := read_eq_ok_iff.mp hr
  have hne := kind_ne_eof_of_statement hst
  obtain ⟨s, ts, values, hts, hlex, hv, hsink, hcount⟩ :=
    statement_performs hs (Cursor.passes_of_token ht hne).1 hst
  obtain ⟨u, k', hr', h⟩ := Outcome.andThen_eq_ok_iff.mp h
  obtain ⟨hu, rfl⟩ := read_eq_ok_iff.mp hr'
  split at h
  · rename_i huk
    have hune : u.kind ≠ .eof := by rw [huk]; decide
    injection h with _ hn
    subst hn
    refine ⟨s, (t :: ts) ++ [u], values, (Cursor.Reads.cons ht hne hts).trans (.single hu hune),
      ?_, hv, hsink, congrArg (· + 1) hcount⟩
    have hulex : u.toLexeme = .semicolon :=
      (Cursor.passes_of_token hu hune).1.eq_of_kind .semicolon huk rfl
    rw [List.map_append, List.map_cons, hlex, List.map_singleton, hulex]
  · cases h

/-- A failure behind a round is a failure of the run. -/
theorem Stalls.cons {k : Machine σ} {s : Statement} {ts : List Token} {values : List Int}
    (hr : m.cursor.Reads ts k.cursor) (hl : ts.map Token.toLexeme = s.lexemes ++ [.semicolon])
    (hv : s.eval? m.symbols.store = some (k.symbols.store, values))
    (hsink : k.sink = sink.deliver m.sink values) (hcount : k.statements = m.statements + 1)
    (h : k.Stalls sink n e p stage d) : m.Stalls sink n e (s :: p) stage d := by
  obtain ⟨us, hus, hlex⟩ := h.reads
  obtain ⟨mid, first, more, hp, hstage, hend⟩ := h.effect
  refine ⟨⟨ts ++ us, hr.trans hus, ?_⟩, h.blames, h.started,
    ⟨mid, values ++ first, more, ?_, hstage, ?_⟩, ?_, h.cursor⟩
  · rw [List.map_append, hl, hlex, Program.lexemes_cons]
    simp
  · exact Program.eval?_cons_eq_some_iff.mpr ⟨_, values, first, hv, hp, rfl⟩
  · rw [hend, hsink, List.append_assoc, Sink.deliver_append sink m.sink values]
  · rw [h.statements, hcount, List.length_cons]
    omega

/-- A run that fails because of its program has executed some statements and has come to a stage of
the next one. The induction is on the text left. -/
theorem proceed_stalls (hs : sink.Reliable) (h : m.proceed sink = .fail (.program e) n) :
    ∃ p stage d, m.Stalls sink n e p stage d := by
  induction hlen : m.left using Nat.strongRecOn generalizing m with
  | ind len ih =>
    rcases m.proceed_cases sink with ⟨t, -, -, hp⟩ | ⟨k, hround, hp⟩ | ⟨err, k, hne, hround, hp⟩
    · rw [h] at hp
      cases hp
    · obtain ⟨s, ts, values, hts, hlex, hv, hsink, hcount⟩ := round_performs hs hround
      obtain ⟨p, stage, d, hstall⟩ := ih _ (hlen ▸ left_round_lt hround) (hp ▸ h) rfl
      exact ⟨s :: p, stage, d, hstall.cons hts hlex hv hsink hcount⟩
    · rw [h] at hp
      injection hp with herr hn
      subst herr hn
      obtain ⟨stage, d, hstall⟩ := round_stalls hs hne hround
      exact ⟨[], stage, d, hstall⟩

end Machine

/-- The outcome is not that a printed value was refused. -/
def Outcome.Delivers (x : Outcome σ α) : Prop := ∀ reason n, x ≠ .fail (.output reason) n

theorem Outcome.Delivers.andThen {x : Outcome σ α} {f : α → Machine σ → Outcome σ β}
    (hx : x.Delivers) (hf : ∀ a m, (f a m).Delivers) : (x.andThen f).Delivers := by
  intro reason n h
  rcases Outcome.andThen_eq_fail_iff.mp h with h | ⟨a, m, -, h⟩
  · exact hx reason n h
  · exact hf a m reason n h

namespace Machine

variable {sink : Sink σ}

theorem delivers_ok (a : α) (m : Machine σ) : (Outcome.ok a m).Delivers := by
  intro reason n h
  cases h

theorem delivers_complain (e : ProgramError) (m : Machine σ) :
    (m.complain e : Outcome σ α).Delivers := by
  intro reason n h
  cases h

theorem delivers_read (m : Machine σ) : m.read.Delivers := by
  rw [read]
  split
  · exact delivers_ok _ _
  · exact delivers_complain _ _

theorem delivers_expression (m : Machine σ) : m.expression.Delivers := by
  refine m.delivers_read.andThen fun t m => ?_
  split
  · exact delivers_ok _ _
  · exact delivers_complain _ _

theorem delivers_declaration (m : Machine σ) : m.declaration.Delivers := by
  refine m.delivers_read.andThen fun t m => ?_
  split
  · split
    · exact delivers_ok _ _
    · exact delivers_complain _ _
  · exact delivers_complain _ _

theorem delivers_assignment (target : Token) (m : Machine σ) : (m.assignment target).Delivers := by
  rw [assignment]
  split
  · exact delivers_complain _ _
  · refine m.delivers_read.andThen fun t m => ?_
    split
    · exact m.delivers_expression.andThen fun v m => delivers_ok _ _
    · exact delivers_complain _ _

theorem delivers_printing (hs : sink.Reliable) (pos : Position) (m : Machine σ) :
    (m.printing sink pos).Delivers := by
  refine m.delivers_expression.andThen fun v m => ?_
  have hv := hs m.sink v
  split
  · exact delivers_ok _ _
  · rename_i he
    rw [he] at hv
    cases hv

theorem delivers_statement (hs : sink.Reliable) (t : Token) (m : Machine σ) :
    (m.statement sink t).Delivers := by
  rw [statement]
  split
  · exact m.delivers_declaration
  · exact m.delivers_assignment t
  · exact delivers_printing hs t.pos m
  · exact delivers_complain _ _

theorem delivers_round (hs : sink.Reliable) (m : Machine σ) : (m.round sink).Delivers := by
  refine (m.delivers_read.andThen (delivers_statement hs)).andThen fun _ m => ?_
  refine m.delivers_read.andThen fun s m => ?_
  split
  · exact delivers_ok _ _
  · exact delivers_complain _ _

theorem delivers_proceed (hs : sink.Reliable) (m : Machine σ) : (m.proceed sink).Delivers := by
  induction hlen : m.left using Nat.strongRecOn generalizing m with
  | ind len ih =>
    rcases m.proceed_cases sink with ⟨t, -, -, hp⟩ | ⟨k, hround, hp⟩ | ⟨err, k, -, hround, hp⟩
    · rw [hp]
      exact delivers_ok _ _
    · rw [hp]
      exact ih _ (hlen ▸ left_round_lt hround) k rfl
    · rw [hp, ← hround]
      exact delivers_round hs m

end Machine

/-- With a sink that takes every value, only the program can make a run fail. -/
theorem exists_program_error {sink : Sink σ} (hs : sink.Reliable) {src : Bytes}
    {symbols : SymbolTable} {state : σ} (h : (execute sink src symbols state).error ≠ none) :
    ∃ e, (execute sink src symbols state).error = some (.program e) := by
  rw [execute_eq] at h ⊢
  have hd := Machine.delivers_proceed hs (Machine.start src symbols state)
  split
  · rename_i hok
    simp [hok] at h
  · rename_i err n hn
    cases err with
    | program e => exact ⟨e, rfl⟩
    | output reason => exact absurd hn (hd reason n)

theorem execute_stalls {sink : Sink σ} (hs : sink.Reliable) {src : Bytes} {symbols : SymbolTable}
    {state : σ} {e : ProgramError}
    (h : (execute sink src symbols state).error = some (.program e)) :
    ∃ p stage d, (Machine.start src symbols state).Stalls sink
      (execute sink src symbols state).machine e p stage d := by
  rw [execute_eq] at h ⊢
  split at h
  · cases h
  · rename_i err n hn
    injection h with h
    subst h
    exact Machine.proceed_stalls hs hn

end StatementLang
