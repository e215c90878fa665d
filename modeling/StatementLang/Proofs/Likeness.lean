import Mathlib.Data.List.Forall2
import StatementLang.Proofs.Layout
import StatementLang.Proofs.Reading

/-!
# Machines that cannot be told apart

Two machines are alike if the tokens in front of them say the same at related positions, their
tables and counts are equal and their sinks are in related states. No step of a run tells such
machines apart: it ends in the same way on both, with errors that differ in related positions only,
and leaves machines that are alike. The relations are parameters, so one theorem serves all
comparisons of two runs.
-/

namespace StatementLang

/-- What may differ between two runs: the positions, the texts behind a lexical error, and the
states of the sinks. -/
structure Likeness (σ τ : Type) where
  place : Position → Position → Prop
  remainder : Bytes → Bytes → Prop
  state : σ → τ → Prop

variable {σ τ : Type} (L : Likeness σ τ)

structure Token.Alike (t u : Token) : Prop where
  lexeme : t.toLexeme = u.toLexeme
  place : L.place t.pos u.pos

structure LexError.Alike (e f : LexError) : Prop where
  remainder : L.remainder e.remainder f.remainder
  place : L.place e.pos f.pos

structure Scan.Alike (s u : Scan) : Prop where
  tokens : List.Forall₂ (Token.Alike L) s.tokens u.tokens
  error : Option.Rel (LexError.Alike L) s.error u.error

inductive Event.Alike : Event → Event → Prop
  | declared {x : Bytes} {p q : Position} (h : L.place p q) :
      Alike (.declared x p) (.declared x q)
  | assigned {x : Bytes} {v : Int} {p q : Position} (h : L.place p q) :
      Alike (.assigned x v p) (.assigned x v q)
  | printed {v : Int} {p q : Position} (h : L.place p q) : Alike (.printed v p) (.printed v q)
  | finished (statements symbols : Nat) :
      Alike (.finished statements symbols) (.finished statements symbols)

/-- Causes are equal, except for the text behind a lexical error. -/
inductive Cause.Alike : Cause → Cause → Prop
  | unmatched {r s : Bytes} (h : L.remainder r s) : Alike (.unmatched r) (.unmatched s)
  | same {c : Cause} (h : c.kind ≠ .lexical) : Alike c c

inductive RunError.Alike : RunError → RunError → Prop
  | program {e f : ProgramError} (cause : e.cause.Alike L f.cause) (place : L.place e.pos f.pos) :
      Alike (.program e) (.program f)
  | output (reason : Bytes) : Alike (.output reason) (.output reason)

structure Machine.Alike (m : Machine σ) (n : Machine τ) : Prop where
  feed : m.feed.Alike L n.feed
  symbols : m.symbols = n.symbols
  state : L.state m.sink n.sink
  events : List.Forall₂ (Event.Alike L) m.events n.events
  statements : m.statements = n.statements

/-- Both succeed with related results or both fail with errors that are alike; either way the
machines are alike. -/
inductive Outcome.Alike {α β : Type} (r : α → β → Prop) : Outcome σ α → Outcome τ β → Prop
  | ok {a : α} {b : β} {m : Machine σ} {n : Machine τ} (result : r a b) (machine : m.Alike L n) :
      Alike r (.ok a m) (.ok b n)
  | fail {e f : RunError} {m : Machine σ} {n : Machine τ} (error : e.Alike L f)
      (machine : m.Alike L n) : Alike r (.fail e m) (.fail f n)

/-- The sinks answer alike and stay in related states. -/
def Likeness.Carries (S : Sink σ) (T : Sink τ) : Prop :=
  ∀ s t v, L.state s t →
    (S.emit s v).2 = (T.emit t v).2 ∧ L.state (S.emit s v).1 (T.emit t v).1

variable {L}

/-- A sink answers alike in equal states. -/
theorem Likeness.carries_self {L : Likeness σ σ} (h : L.state = Eq) (sink : Sink σ) :
    L.Carries sink sink := by
  intro s t v hst
  rw [h] at hst ⊢
  rw [hst]
  exact ⟨rfl, rfl⟩

theorem Outcome.Alike.andThen {α β α' β' : Type} {r : α → β → Prop} {q : α' → β' → Prop}
    {x : Outcome σ α} {y : Outcome τ β} {f : α → Machine σ → Outcome σ α'}
    {g : β → Machine τ → Outcome τ β'} (h : Alike L r x y)
    (hf : ∀ a b m n, r a b → Machine.Alike L m n → Alike L q (f a m) (g b n)) :
    Alike L q (x.andThen f) (y.andThen g) := by
  cases h with
  | ok result machine => exact hf _ _ _ _ result machine
  | fail error machine => exact .fail error machine

namespace Machine

variable {m : Machine σ} {n : Machine τ} {S : Sink σ} {T : Sink τ} {t u : Token}

theorem Alike.behind (h : m.Alike L n) (hf : m.behind.feed.Alike L n.behind.feed) :
    m.behind.Alike L n.behind := ⟨hf, h.symbols, h.state, h.events, h.statements⟩

theorem read_alike (h : m.Alike L n) : Outcome.Alike L (Token.Alike L) m.read n.read := by
  obtain ⟨htok, herr⟩ := h.feed
  obtain ⟨ts, e, hm⟩ : ∃ ts e, m.feed = ⟨ts, e⟩ := ⟨_, _, rfl⟩
  obtain ⟨us, f, hn⟩ : ∃ us f, n.feed = ⟨us, f⟩ := ⟨_, _, rfl⟩
  rw [hm, hn] at htok herr
  cases htok with
  | nil =>
    obtain ⟨e, rfl, hr, hb⟩ := read_of_failure hm
    obtain ⟨f, rfl, hr', hb'⟩ := read_of_failure hn
    cases herr with
    | some he =>
      rw [hr, hr']
      refine .fail (.program (.unmatched he.remainder) he.place) (h.behind ?_)
      rw [hb, hb']
      exact h.feed
  | cons htu hrest =>
    obtain ⟨hr, hb⟩ := read_of_token hm
    obtain ⟨hr', hb'⟩ := read_of_token hn
    rw [hr, hr']
    refine .ok htu (h.behind ?_)
    rw [hb, hb', htu.lexeme]
    split
    · exact h.feed
    · exact ⟨hrest, herr⟩

theorem complain_alike {α β : Type} {r : α → β → Prop} {e f : ProgramError} (h : m.Alike L n)
    (cause : e.cause.Alike L f.cause) (place : L.place e.pos f.pos) :
    Outcome.Alike L r (m.complain e) (n.complain f) :=
  .fail (.program cause place) h

theorem unexpected_alike {α β : Type} {r : α → β → Prop} (expected : Expected) (h : m.Alike L n)
    (htu : t.Alike L u) :
    Outcome.Alike L r (m.complain (.unexpected expected t))
      (n.complain (.unexpected expected u)) := by
  refine complain_alike h ?_ htu.place
  rw [ProgramError.unexpected, ProgramError.unexpected, htu.lexeme]
  exact .same (by simp [Cause.kind])

theorem record_alike {e f : Event} (h : m.Alike L n) (he : e.Alike L f) :
    (m.record e).Alike L (n.record f) :=
  ⟨h.feed, h.symbols, h.state, .cons he h.events, h.statements⟩

theorem expression_alike (h : m.Alike L n) : Outcome.Alike L Eq m.expression n.expression := by
  refine (read_alike h).andThen fun t u m n htu hmn => ?_
  obtain ⟨⟨kind, literal⟩, p⟩ := t
  obtain ⟨⟨kind', literal'⟩, q⟩ := u
  obtain ⟨rfl, rfl⟩ : kind = kind' ∧ literal = literal' := by simpa using htu.lexeme
  rw [hmn.symbols]
  cases kind with
  | ident =>
    simp only [evaluate]
    cases n.symbols.lookup literal with
    | ok v => exact .ok rfl hmn
    | error e => exact complain_alike hmn (.same (by simp [Cause.kind])) htu.place
  | int =>
    simp only [evaluate]
    cases literalValue? literal with
    | some v => exact .ok rfl hmn
    | none => exact complain_alike hmn (.same (by simp [Cause.kind])) htu.place
  | _ => exact unexpected_alike .expression hmn htu

theorem declaration_alike (h : m.Alike L n) : Outcome.Alike L Eq m.declaration n.declaration := by
  refine (read_alike h).andThen fun t u m n htu hmn => ?_
  rw [htu.lexeme, hmn.symbols]
  split
  · cases n.symbols.declare u.literal with
    | ok symbols =>
      exact .ok rfl (record_alike ⟨hmn.feed, rfl, hmn.state, hmn.events, hmn.statements⟩
        (.declared htu.place))
    | error e => exact complain_alike hmn (.same (by simp [Cause.kind])) htu.place
  · exact unexpected_alike .identifier hmn htu

theorem assignment_alike (h : m.Alike L n) (htu : t.Alike L u) :
    Outcome.Alike L Eq (m.assignment t) (n.assignment u) := by
  simp only [assignment]
  rw [htu.lexeme, h.symbols]
  cases n.symbols.lookup u.literal with
  | error e => exact complain_alike h (.same (by simp [Cause.kind])) htu.place
  | ok old =>
    refine (read_alike h).andThen fun a b m n hab hmn => ?_
    rw [hab.lexeme]
    split
    · refine (expression_alike hmn).andThen fun v w m n hvw hmn => ?_
      subst hvw
      rw [hmn.symbols]
      exact .ok rfl (record_alike ⟨hmn.feed, rfl, hmn.state, hmn.events, hmn.statements⟩
        (.assigned htu.place))
    · exact unexpected_alike .assignment hmn hab

theorem printing_alike (hst : L.Carries S T) {p q : Position} (hpq : L.place p q)
    (h : m.Alike L n) : Outcome.Alike L Eq (m.printing S p) (n.printing T q) := by
  refine (expression_alike h).andThen fun v w m n hvw hmn => ?_
  subst hvw
  obtain ⟨hreason, hstate⟩ := hst m.sink n.sink v hmn.state
  cases hm : S.emit m.sink v with
  | mk s reason =>
    cases hn : T.emit n.sink v with
    | mk s' reason' =>
      rw [hm, hn] at hreason hstate
      obtain rfl : reason = reason' := hreason
      have hmn' : Alike L { m with sink := s } { n with sink := s' } :=
        ⟨hmn.feed, hmn.symbols, hstate, hmn.events, hmn.statements⟩
      cases reason with
      | none => exact .ok rfl (record_alike hmn' (.printed hpq))
      | some reason => exact .fail (.output reason) hmn'

theorem statement_alike (hst : L.Carries S T) (htu : t.Alike L u) (h : m.Alike L n) :
    Outcome.Alike L Eq (m.statement S t) (n.statement T u) := by
  have hk : t.kind = u.kind := by rw [htu.lexeme]
  simp only [statement]
  rw [hk]
  cases u.kind with
  | var => exact declaration_alike h
  | ident => exact assignment_alike h htu
  | print => exact printing_alike hst htu.place h
  | _ => exact unexpected_alike .statement h htu

theorem terminated_alike (hst : L.Carries S T) (htu : t.Alike L u) (h : m.Alike L n) :
    Outcome.Alike L (Token.Alike L) (m.terminated S t) (n.terminated T u) := by
  refine (statement_alike hst htu h).andThen fun _ _ m n _ hmn => ?_
  refine (read_alike hmn).andThen fun a b m n hab hmn => ?_
  rw [hab.lexeme]
  split
  · refine read_alike ⟨hmn.feed, hmn.symbols, hmn.state, hmn.events, ?_⟩
    rw [hmn.statements]
  · exact unexpected_alike .semicolon hmn hab

/-- The statement loop does not tell machines apart. -/
theorem loop_alike (hst : L.Carries S T) (htu : t.Alike L u) (h : m.Alike L n) :
    Outcome.Alike L Eq (m.loop S t) (n.loop T u) := by
  induction hlen : m.left using Nat.strongRecOn generalizing m n t u with
  | ind k ih =>
    rw [loop_eq, loop_eq, htu.lexeme]
    split
    · rw [h.statements, h.symbols]
      exact .ok rfl (record_alike h (.finished _ _))
    · have hround := terminated_alike hst htu h
      have hless : ∀ t' m', m.terminated S t = .ok t' m' → m'.left < k := by
        intro t' m' hm
        rw [← hlen]
        exact left_terminated_lt hm
      generalize m.terminated S t = x at hround hless ⊢
      generalize n.terminated T u = y at hround ⊢
      cases hround with
      | ok htu' hmn' => exact ih _ (hless _ _ rfl) htu' hmn' rfl
      | fail error machine => exact .fail error machine

end Machine

structure Execution.Alike (L : Likeness σ τ) (e : Execution σ) (f : Execution τ) : Prop where
  error : Option.Rel (RunError.Alike L) e.error f.error
  machine : e.machine.Alike L f.machine

theorem Machine.run_alike {S : Sink σ} {T : Sink τ} (hst : L.Carries S T) {m : Machine σ}
    {n : Machine τ} (h : m.Alike L n) : (m.run S).Alike L (n.run T) := by
  have hclear : Machine.Alike L { m with events := [] } { n with events := [] } :=
    ⟨h.feed, h.symbols, h.state, .nil, h.statements⟩
  have hloop : Outcome.Alike L Eq ({ m with events := [] }.read.andThen (loop S))
      ({ n with events := [] }.read.andThen (loop T)) :=
    (read_alike hclear).andThen fun t u m n htu hmn => loop_alike hst htu hmn
  rw [run, run]
  generalize { m with events := [] }.read.andThen (loop S) = x at hloop ⊢
  generalize { n with events := [] }.read.andThen (loop T) = y at hloop ⊢
  cases hloop with
  | ok _ machine => exact ⟨.none, machine⟩
  | fail error machine => exact ⟨.some error, machine⟩

/-- Sources whose scans are alike run alike. -/
theorem execute_alike {S : Sink σ} {T : Sink τ} (hst : L.Carries S T) {src src' : Bytes}
    (h : (tokenize src).Alike L (tokenize src')) (symbols : SymbolTable) {s : σ} {s' : τ}
    (hs : L.state s s') : (execute S src symbols s).Alike L (execute T src' symbols s') :=
  Machine.run_alike hst ⟨h, rfl, hs, .nil, rfl⟩

def Event.printed? : Event → Option Int
  | .printed v _ => some v
  | _ => none

def Machine.printed (m : Machine σ) : List Int := m.log.filterMap Event.printed?

theorem Event.filterMap_printed_eq {es fs : List Event} (h : List.Forall₂ (Event.Alike L) es fs) :
    es.filterMap Event.printed? = fs.filterMap Event.printed? := by
  induction h with
  | nil => rfl
  | cons he _ ih =>
    rw [List.filterMap_cons, List.filterMap_cons, ih]
    cases he <;> rfl

theorem Machine.Alike.printed_eq {m : Machine σ} {n : Machine τ} (h : m.Alike L n) :
    m.printed = n.printed := by
  simp only [Machine.printed, Machine.log, List.filterMap_reverse,
    Event.filterMap_printed_eq h.events]

/-- The positions of tokens with one index in two lists. -/
def SameIndex (ts us : List Token) (p q : Position) : Prop :=
  ∃ (i : Nat) (t u : Token), ts[i]? = some t ∧ us[i]? = some u ∧ t.pos = p ∧ u.pos = q

/-- Errors with one cause, or one reason of the sink, that blame tokens with one index. -/
inductive SameFailure (ts us : List Token) : RunError → RunError → Prop
  | program {cause : Cause} {p q : Position} (place : SameIndex ts us p q) :
      SameFailure ts us (.program ⟨cause, p⟩) (.program ⟨cause, q⟩)
  | output (reason : Bytes) : SameFailure ts us (.output reason) (.output reason)

/-- Runs of the token lists `ts` and `us` with the same effects and the same failure, if any. -/
structure Execution.Agree (ts us : List Token) (e f : Execution σ) : Prop where
  printed : e.machine.printed = f.machine.printed
  sink : e.machine.sink = f.machine.sink
  symbols : e.machine.symbols = f.machine.symbols
  statements : e.machine.statements = f.machine.statements
  error : Option.Rel (SameFailure ts us) e.error f.error

/-- Only positions may differ, and only as positions of one index do. -/
def Likeness.ofIndex (ts us : List Token) : Likeness σ σ := ⟨SameIndex ts us, Eq, Eq⟩

theorem Scan.alike_of_lexemes {s u : Scan} (h : s.lexemes = u.lexemes) (hs : s.error = none)
    (hu : u.error = none) : s.Alike (Likeness.ofIndex (σ := σ) s.tokens u.tokens) u := by
  refine ⟨List.forall₂_iff_get.mpr ⟨?_, ?_⟩, by rw [hs, hu]; exact .none⟩
  · simpa [Scan.lexemes] using congrArg List.length h
  · intro i hi hi'
    refine ⟨?_, i, s.tokens[i], u.tokens[i], by simp, by simp, rfl, rfl⟩
    have hget := congrArg (fun ls => ls[i]?) h
    simpa [Scan.lexemes, hi, hi'] using hget

theorem RunError.Alike.sameFailure {ts us : List Token} {e f : RunError}
    (h : e.Alike (Likeness.ofIndex (σ := σ) ts us) f) : SameFailure ts us e f := by
  cases h with
  | @program e f cause place =>
    obtain ⟨c, p⟩ := e
    obtain ⟨d, q⟩ := f
    have hcd : c = d := by
      cases cause with
      | unmatched h => exact congrArg Cause.unmatched h
      | same => rfl
    subst hcd
    exact .program place
  | output reason => exact .output reason

/-- Sources with the same lexemes have the same runs. -/
theorem execute_agree {src src' : Bytes} (h : (tokenize src).error = none)
    (h' : (tokenize src').error = none) (hl : (tokenize src).lexemes = (tokenize src').lexemes)
    (sink : Sink σ) (symbols : SymbolTable) (state : σ) :
    (execute sink src symbols state).Agree (tokenize src).tokens (tokenize src').tokens
      (execute sink src' symbols state) := by
  have hrun := execute_alike (Likeness.carries_self rfl sink) (Scan.alike_of_lexemes hl h h')
    symbols (s := state) rfl
  obtain ⟨herr, hmachine⟩ := hrun
  refine ⟨hmachine.printed_eq, hmachine.state, hmachine.symbols, hmachine.statements, ?_⟩
  generalize (execute sink src symbols state).error = e at herr ⊢
  generalize (execute sink src' symbols state).error = f at herr ⊢
  cases herr with
  | none => exact .none
  | some he => exact .some he.sameFailure

/-- A run depends on what the tokens of its source say and not on where they stand: sources with
the same lexemes print the same values, leave the same table, sink and count, and fail together,
with the same cause at tokens of the same index. In particular layout never changes what a source
does. -/
theorem execute_depends_on_lexemes (sink : Sink σ) (symbols : SymbolTable) (state : σ) :
    (∀ src src' : Bytes, (tokenize src).error = none → (tokenize src').error = none →
      (tokenize src).lexemes = (tokenize src').lexemes →
      (execute sink src symbols state).Agree (tokenize src).tokens (tokenize src').tokens
        (execute sink src' symbols state)) ∧
    (∀ src : Bytes, (tokenize src).error = none → ∃ out, canonical src = .ok out ∧
      (execute sink src symbols state).Agree (tokenize src).tokens (tokenize out).tokens
        (execute sink out symbols state)) := by
  refine ⟨fun src src' h h' hl => execute_agree h h' hl sink symbols state, fun src h => ?_⟩
  obtain ⟨out, ls, hout, hsrc, hlex⟩ := canonical_lexes h
  obtain ⟨herr, hls⟩ := tokenize_eq_of_lexes hsrc hlex
  exact ⟨out, hout, execute_agree h herr hls.symm sink symbols state⟩

/-- The second value is refused, on whatever line it is printed. -/
theorem execute_depends_on_lexemes_failing :
    let src := utf8 "vara;print a;print 7"
    let src' := utf8 "var a ;\n\tprint a\n; print 7"
    let run := fun text => execute (Sink.failingAt 2) text .empty ⟨0, []⟩
    ((tokenize src).error = none ∧ (tokenize src').error = none ∧
      (tokenize src).lexemes = (tokenize src').lexemes) ∧
    (run src).Agree (tokenize src).tokens (tokenize src').tokens (run src') ∧
    ∃ out, canonical src = .ok out ∧
      (run src).Agree (tokenize src).tokens (tokenize out).tokens (run out) := by
  intro src src' run
  have h : (tokenize src).error = none := by decide +kernel
  have h' : (tokenize src').error = none := by decide +kernel
  have hl : (tokenize src).lexemes = (tokenize src').lexemes := by decide +kernel
  have hrun := execute_depends_on_lexemes (Sink.failingAt 2) .empty ⟨0, []⟩
  exact ⟨⟨h, h', hl⟩, hrun.1 src src' h h' hl, hrun.2 src h⟩

end StatementLang
