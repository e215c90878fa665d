import StatementLang.Log.Line
import StatementLang.Proofs.Provenance

/-!
# The log replays the run

A record of the debug log says what was done to the table or handed to the sink, and it is written
as soon as that is done, before the semicolon is looked for. So the records of a run, done again one
after the other from the table that the run found, lead to the table that the run leaves and to the
values that the sink has taken. This holds wherever the run stops. Only a run that comes to its end
says so, in its last record.
-/

namespace StatementLang

/-- What a record of the log says was done. -/
inductive LogAction where
  | declare (name : Bytes)
  | assign (name : Bytes) (value : Int)
  | emit (value : Int)
  | finish (statements symbols : Int)
  deriving DecidableEq, Repr

namespace LogRecord

def field? (key : String) (r : LogRecord) : Option LogValue :=
  (r.fields.find? fun f => f.key = utf8 key).map (·.value)

def text? (key : String) (r : LogRecord) : Option Bytes :=
  match r.field? key with
  | some (.text t) => some t
  | _ => none

def number? (key : String) (r : LogRecord) : Option Int :=
  match r.field? key with
  | some (.number n) => some n
  | _ => none

/-- Reads a record by its message and the fields that belong to it. -/
def action? (r : LogRecord) : Option LogAction :=
  if r.message = utf8 "declared variable" then (r.text? "name").map .declare
  else if r.message = utf8 "assigned variable" then
    (r.text? "name").bind fun x => (r.number? "value").map (.assign x)
  else if r.message = utf8 "printed value" then (r.number? "value").map .emit
  else if r.message = utf8 "program finished" then
    (r.number? "statements").bind fun n => (r.number? "variables").map (.finish n)
  else none

end LogRecord

/-- What a replay has come to: the variables, and the values handed out, in order. -/
structure Replay where
  store : Store
  values : List Int

/-- Does an action again. Only a new name can be declared, and only a declared one be assigned. -/
def LogAction.redo : LogAction → Replay → Option Replay
  | .declare x, r => if x ∈ r.store then none else some { r with store := r.store.insert x 0 }
  | .assign x v, r => if x ∈ r.store then some { r with store := r.store.insert x v } else none
  | .emit v, r => some { r with values := r.values ++ [v] }
  | .finish _ _, r => some r

def replay : List LogRecord → Replay → Option Replay
  | [], r => some r
  | x :: xs, r => (x.action?.bind fun a => a.redo r).bind (replay xs)

@[simp] theorem replay_append (xs ys : List LogRecord) (r : Replay) :
    replay (xs ++ ys) r = (replay xs r).bind (replay ys) := by
  induction xs generalizing r with
  | nil => rfl
  | cons x xs ih =>
    rw [List.cons_append, replay, replay]
    cases x.action?.bind fun a => a.redo r with
    | none => rfl
    | some s => exact ih s

namespace Event

def action : Event → LogAction
  | .declared name _ => .declare name
  | .assigned name value _ => .assign name value
  | .printed value _ => .emit value
  | .finished statements symbols => .finish statements symbols

/-- The record of an event says what the event was. -/
@[simp] theorem action?_record (e : Event) : e.record.action? = some e.action := by
  have hassigned : utf8 "assigned variable" ≠ utf8 "declared variable" := by decide +kernel
  have hprinted : utf8 "printed value" ≠ utf8 "declared variable" ∧
      utf8 "printed value" ≠ utf8 "assigned variable" := by decide +kernel
  have hfinished : utf8 "program finished" ≠ utf8 "declared variable" ∧
      utf8 "program finished" ≠ utf8 "assigned variable" ∧
      utf8 "program finished" ≠ utf8 "printed value" := by decide +kernel
  have hvalue : utf8 "name" ≠ utf8 "value" := by decide +kernel
  have hvariables : utf8 "statements" ≠ utf8 "variables" := by decide +kernel
  cases e with
  | declared name pos =>
    simp [record, LogRecord.action?, LogRecord.text?, LogRecord.field?, LogField.text, action]
  | assigned name value pos =>
    simp [record, LogRecord.action?, LogRecord.text?, LogRecord.number?, LogRecord.field?,
      LogField.text, LogField.number, action, hassigned, hvalue]
  | printed value pos =>
    simp [record, LogRecord.action?, LogRecord.number?, LogRecord.field?, LogField.number, action,
      hprinted]
  | finished statements symbols =>
    simp [record, LogRecord.action?, LogRecord.number?, LogRecord.field?, LogField.number, action,
      hfinished, hvariables]

@[simp] theorem replay_record (e : Event) (r : Replay) : replay [e.record] r = e.action.redo r := by
  rw [replay, action?_record, Option.bind_some]
  cases e.action.redo r <;> rfl

/-- The event is the end of a run. -/
def IsEnd (e : Event) : Prop := ∃ statements symbols, e = .finished statements symbols

theorem message_of_not_isEnd {e : Event} (h : ¬ e.IsEnd) :
    e.record.message ≠ utf8 "program finished" := by
  have hdeclared : utf8 "declared variable" ≠ utf8 "program finished" := by decide +kernel
  have hassigned : utf8 "assigned variable" ≠ utf8 "program finished" := by decide +kernel
  have hprinted : utf8 "printed value" ≠ utf8 "program finished" := by decide +kernel
  cases e with
  | declared name pos => exact hdeclared
  | assigned name value pos => exact hassigned
  | printed value pos => exact hprinted
  | finished statements symbols => exact absurd ⟨statements, symbols, rfl⟩ h

end Event

variable {σ α β : Type}

namespace Machine

variable {sink : Sink σ} {m n k : Machine σ} {t : Token}

@[simp] theorem log_record (e : Event) (m : Machine σ) : (m.record e).log = m.log ++ [e] := by
  simp [log, record]

/-- From one machine to the other the events were recorded, and the sink has taken the values. The
events tell what has become of the table and which values these are. -/
structure Tells (sink : Sink σ) (m n : Machine σ) (es : List Event) (values : List Int) :
    Prop where
  log : n.log = m.log ++ es
  unended : ∀ e ∈ es, ¬ e.IsEnd
  replay : ∀ before, replay (es.map Event.record) ⟨m.symbols.store, before⟩ =
    some ⟨n.symbols.store, before ++ values⟩
  taken : sink.Takes m.sink values
  sink : n.sink = sink.deliver m.sink values

namespace Tells

variable {es fs : List Event} {values more : List Int}

/-- Nothing but the cursor and the count of statements has changed. -/
theorem silent (hlog : n.log = m.log) (hsymbols : n.symbols = m.symbols) (hsink : n.sink = m.sink) :
    m.Tells sink n [] [] where
  log := by rw [hlog, List.append_nil]
  unended := by simp
  replay := by
    intro before
    rw [hsymbols, List.append_nil]
    rfl
  taken := trivial
  sink := hsink

theorem trans (h : m.Tells sink k es values) (h' : k.Tells sink n fs more) :
    m.Tells sink n (es ++ fs) (values ++ more) where
  log := by rw [h'.log, h.log, List.append_assoc]
  unended := by
    intro e he
    rcases List.mem_append.mp he with he | he
    · exact h.unended e he
    · exact h'.unended e he
  replay := by
    intro before
    rw [List.map_append, replay_append, h.replay, Option.bind_some, h'.replay, List.append_assoc]
  taken := by
    rw [Sink.takes_append, ← h.sink]
    exact ⟨h.taken, h'.taken⟩
  sink := by rw [h'.sink, h.sink, Sink.deliver_append]

theorem declared {symbols : SymbolTable} {x : Bytes} {pos : Position} {c : Cursor}
    (h : m.symbols.declare x = .ok symbols) :
    m.Tells sink ({ m with cursor := c, symbols }.record (.declared x pos))
      [.declared x pos] [] where
  log := log_record _ _
  unended := by simp [Event.IsEnd]
  replay := by
    intro before
    obtain ⟨hnew, hstore⟩ := SymbolTable.store_of_declare h
    rw [List.map_singleton, Event.replay_record, Event.action, LogAction.redo, if_neg hnew,
      List.append_nil, ← hstore]
    rfl
  taken := trivial
  sink := rfl

theorem assigned {x : Bytes} {old v : Int} {pos : Position} {c : Cursor}
    (h : m.symbols.lookup x = .ok old) :
    m.Tells sink ({ m with cursor := c, symbols := m.symbols.set x v }.record (.assigned x v pos))
      [.assigned x v pos] [] where
  log := log_record _ _
  unended := by simp [Event.IsEnd]
  replay := by
    intro before
    have hmem : x ∈ m.symbols.store :=
      Finmap.mem_of_lookup_eq_some (SymbolTable.lookup_eq_ok_iff.mp h)
    rw [List.map_singleton, Event.replay_record, Event.action, LogAction.redo, if_pos hmem,
      List.append_nil, ← SymbolTable.store_set hmem]
    rfl
  taken := trivial
  sink := rfl

theorem printed {v : Int} {s : σ} {pos : Position} {c : Cursor}
    (h : sink.emit m.sink v = (s, none)) :
    m.Tells sink ({ m with cursor := c, sink := s }.record (.printed v pos))
      [.printed v pos] [v] where
  log := log_record _ _
  unended := by simp [Event.IsEnd]
  replay := by
    intro before
    rw [List.map_singleton, Event.replay_record]
    rfl
  taken := ⟨by rw [h], trivial⟩
  sink := by
    rw [Sink.deliver, List.foldl_cons, List.foldl_nil, h]
    rfl

end Tells

end Machine

/-- What a failure leaves of the sink: a value that is refused has been handed over, and else
nothing has. -/
def Sink.Ends (sink : Sink σ) (s final : σ) : Option RunError → Prop
  | some (.output reason) => ∃ v, sink.emit s v = (final, some reason)
  | _ => final = s

/-- A failure leaves the table and the log as they are. -/
structure Machine.Leaves (sink : Sink σ) (k n : Machine σ) (e : RunError) : Prop where
  log : n.log = k.log
  symbols : n.symbols = k.symbols
  sink : sink.Ends k.sink n.sink (some e)

/-- What a step has done is told by its events. If it succeeds, it has recorded `count` of them and
completed no statement. -/
inductive Outcome.Tells (sink : Sink σ) (m : Machine σ) (count : Nat) : Outcome σ α → Prop
  | ok {a : α} {n : Machine σ} {es : List Event} {values : List Int} (h : m.Tells sink n es values)
      (hlength : es.length = count) (hstatements : n.statements = m.statements) :
      Tells sink m count (.ok a n)
  | fail {e : RunError} {k n : Machine σ} {es : List Event} {values : List Int}
      (h : m.Tells sink k es values) (hleaves : k.Leaves sink n e) : Tells sink m count (.fail e n)

namespace Outcome.Tells

variable {sink : Sink σ} {m : Machine σ} {i : Nat}

/-- A step that has recorded nothing adds nothing to the count. -/
theorem andThen {x : Outcome σ α} {f : α → Machine σ → Outcome σ β} (hx : x.Tells sink m 0)
    (hf : ∀ a n, x = .ok a n → (f a n).Tells sink n i) : (x.andThen f).Tells sink m i := by
  cases hx with
  | @ok a n es values h hlength hstatements =>
    have hrest := hf a n rfl
    rw [ok_andThen]
    generalize f a n = y at hrest ⊢
    cases hrest with
    | ok h' hlength' hstatements' =>
      exact .ok (h.trans h') (by rw [List.length_append, hlength, hlength', Nat.zero_add])
        (hstatements'.trans hstatements)
    | fail h' hleaves => exact .fail (h.trans h') hleaves
  | fail h hleaves => exact .fail h hleaves

/-- A complaint about the program leaves everything as it is. -/
theorem complain (e : ProgramError) (m : Machine σ) :
    (m.complain e : Outcome σ α).Tells sink m i :=
  .fail (.silent rfl rfl rfl) ⟨rfl, rfl, rfl⟩

end Outcome.Tells

namespace Machine

variable {sink : Sink σ} {m n : Machine σ} {t : Token}

theorem read_tells (sink : Sink σ) (m : Machine σ) : m.read.Tells sink m 0 := by
  cases hc : m.cursor.next.1 with
  | ok t =>
    rw [read_of_ok hc]
    exact .ok (.silent rfl rfl rfl) rfl rfl
  | error e =>
    rw [read_of_error hc]
    exact .fail (.silent rfl rfl rfl) ⟨rfl, rfl, rfl⟩

theorem expression_tells (sink : Sink σ) (m : Machine σ) : m.expression.Tells sink m 0 := by
  refine (read_tells sink m).andThen fun t n _ => ?_
  cases evaluate n.symbols t with
  | ok v => exact .ok (.silent rfl rfl rfl) rfl rfl
  | error e => exact .complain e n

theorem declaration_tells (sink : Sink σ) (m : Machine σ) : m.declaration.Tells sink m 1 := by
  refine (read_tells sink m).andThen fun t n _ => ?_
  split
  · cases hd : n.symbols.declare t.literal with
    | ok symbols => exact .ok (.declared hd) rfl rfl
    | error e => exact .complain _ n
  · exact .complain _ n

theorem assignment_tells (sink : Sink σ) (target : Token) (m : Machine σ) :
    (m.assignment target).Tells sink m 1 := by
  rw [assignment]
  split
  · exact .complain _ m
  · rename_i old hold
    refine (read_tells sink m).andThen fun t n hr => ?_
    obtain ⟨-, rfl⟩ := read_eq_ok_iff.mp hr
    split
    · refine (expression_tells sink m.behind).andThen fun v n he => ?_
      obtain ⟨rfl, -⟩ := lexemes_of_expression he
      exact .ok (.assigned hold) rfl rfl
    · exact .complain _ _

/-- A value that is refused is in no record. -/
theorem printing_tells (sink : Sink σ) (pos : Position) (m : Machine σ) :
    (m.printing sink pos).Tells sink m 1 := by
  refine (expression_tells sink m).andThen fun v n _ => ?_
  split
  · rename_i s hemit
    exact .ok (.printed hemit) rfl rfl
  · rename_i s reason hemit
    exact .fail (.silent rfl rfl rfl) ⟨rfl, rfl, v, hemit⟩

theorem statement_tells (sink : Sink σ) (t : Token) (m : Machine σ) :
    (m.statement sink t).Tells sink m 1 := by
  rw [statement]
  split
  · exact declaration_tells sink m
  · exact assignment_tells sink t m
  · exact printing_tells sink t.pos m
  · exact .complain _ m

theorem opening_tells (sink : Sink σ) (m : Machine σ) :
    (m.read.andThen (statement sink)).Tells sink m 1 :=
  (read_tells sink m).andThen fun t n _ => statement_tells sink t n

/-- A round that succeeds has recorded one event, which is that of its statement. -/
theorem round_ok_tells (h : m.round sink = .ok () n) :
    ∃ e values, m.Tells sink n [e] values ∧ n.statements = m.statements + 1 := by
  obtain ⟨u, k, hopen, h⟩ := Outcome.andThen_eq_ok_iff.mp h
  obtain ⟨s, k', hr, h⟩ := Outcome.andThen_eq_ok_iff.mp h
  obtain ⟨-, rfl⟩ := read_eq_ok_iff.mp hr
  have hstatement := opening_tells sink m
  rw [hopen] at hstatement
  obtain ⟨htells, hlength, hcount⟩ := hstatement
  obtain ⟨e, rfl⟩ := List.length_eq_one_iff.mp hlength
  split at h
  · injection h with _ hn
    subst hn
    exact ⟨e, _, ⟨htells.log, htells.unended, htells.replay, htells.taken, htells.sink⟩,
      congrArg (· + 1) hcount⟩
  · cases h

/-- A round may fail before or behind the effect of its statement, and is told either way. -/
theorem round_fail_tells {err : RunError} (h : m.round sink = .fail err n) :
    ∃ k es values, m.Tells sink k es values ∧ k.Leaves sink n err := by
  have hstatement := opening_tells sink m
  rcases Outcome.andThen_eq_fail_iff.mp h with hopen | ⟨u, k, hopen, h⟩
  · rw [hopen] at hstatement
    obtain _ | ⟨htells, hleaves⟩ := hstatement
    exact ⟨_, _, _, htells, hleaves⟩
  · rw [hopen] at hstatement
    obtain ⟨htells, -, -⟩ := hstatement
    refine ⟨k, _, _, htells, ?_⟩
    cases hc : k.cursor.next.1 with
    | error e =>
      rw [read_of_error hc] at h
      cases h
      exact ⟨rfl, rfl, rfl⟩
    | ok s =>
      rw [read_of_ok hc, Outcome.ok_andThen] at h
      split at h <;> cases h
      exact ⟨rfl, rfl, rfl⟩

/-- A run is told up to its end or to the failure. If it comes to the end, each statement is one
event. -/
theorem proceed_tells (sink : Sink σ) (m : Machine σ) :
    ∃ k es values, m.Tells sink k es values ∧
      (m.proceed sink = .ok () (k.record (.finished k.statements k.symbols.size)) ∧
          k.statements = m.statements + es.length ∨
        ∃ err n, m.proceed sink = .fail err n ∧ k.Leaves sink n err) := by
  induction m using round_induction sink with
  | step m ih =>
    rcases m.proceed_cases sink with ⟨t, -, -, hp⟩ | ⟨n, hround, hp⟩ | ⟨err, n, -, hround, hp⟩
    · exact ⟨m.behind, [], [], .silent rfl rfl rfl, .inl ⟨hp, rfl⟩⟩
    · obtain ⟨e, values, hfirst, hcount⟩ := round_ok_tells hround
      obtain ⟨k, es, more, hrest, hend⟩ := ih n hround
      refine ⟨k, e :: es, values ++ more, hfirst.trans hrest, ?_⟩
      rw [hp, List.length_cons]
      rw [hcount] at hend
      exact hend.imp_left fun ⟨hk, hstatements⟩ => ⟨hk, by omega⟩
    · obtain ⟨k, es, values, htells, hleaves⟩ := round_fail_tells hround
      exact ⟨k, es, values, htells, .inr ⟨err, n, hp, hleaves⟩⟩

end Machine

/-- The record behind all others if the run came to its end: the statements completed and the
variables there are. -/
def Execution.closing (x : Execution σ) : List LogRecord :=
  match x.error with
  | none =>
    [⟨Level.debug, utf8 "program finished",
      [.number "statements" x.machine.statements, .number "variables" x.machine.symbols.size]⟩]
  | some _ => []

/-- The records of a run can be done again on the table that it found. They lead to the table that
it leaves and to the values that the sink has taken, whether the run succeeds or fails. Just a run
that succeeds closes the log with the record of its end, and in front of it there is one record for
each statement. -/
theorem log_replays_run (sink : Sink σ) (m : Machine σ) :
    ∃ values body,
      replay ((m.run sink).machine.log.map Event.record) ⟨m.symbols.store, []⟩ =
        some ⟨(m.run sink).machine.symbols.store, values⟩ ∧
      sink.Takes m.sink values ∧
      sink.Ends (sink.deliver m.sink values) (m.run sink).machine.sink (m.run sink).error ∧
      (m.run sink).machine.log.map Event.record = body ++ (m.run sink).closing ∧
      (∀ r ∈ body, r.message ≠ utf8 "program finished") ∧
      ((m.run sink).error = none →
        (m.run sink).machine.statements = m.statements + body.length) := by
  obtain ⟨k, es, values, htells, hend⟩ := m.afresh.proceed_tells sink
  have hbody : ∀ r ∈ es.map Event.record, r.message ≠ utf8 "program finished" := by
    intro r hr
    obtain ⟨e, he, rfl⟩ := List.mem_map.mp hr
    exact Event.message_of_not_isEnd (htells.unended e he)
  have hlog : k.log = es := htells.log
  have hreplay : replay (es.map Event.record) ⟨m.symbols.store, []⟩ =
      some ⟨k.symbols.store, values⟩ := htells.replay []
  have hsink : k.sink = sink.deliver m.sink values := htells.sink
  refine ⟨values, es.map Event.record, ?_⟩
  rw [Machine.run_eq]
  rcases hend with ⟨hp, hcount⟩ | ⟨err, n, hp, hleaves⟩
  · rw [hp]
    simp only [Outcome.execution, Machine.log_record, hlog, List.map_append, List.map_singleton]
    refine ⟨?_, htells.taken, hsink, rfl, hbody, fun _ => ?_⟩
    · rw [replay_append, hreplay, Option.bind_some, Event.replay_record]
      rfl
    · rw [List.length_map]
      exact hcount
  · rw [hp]
    simp only [Outcome.execution, hleaves.log, hlog, hleaves.symbols]
    refine ⟨hreplay, htells.taken, hsink ▸ hleaves.sink, (List.append_nil _).symm, hbody, ?_⟩
    intro hnone
    cases hnone

/-- A first run that succeeds: three statements are three records and that of the end. -/
theorem log_replays_run_three :
    let x := execute Sink.collector (utf8 "var a; a = 5; print a;") .empty []
    x.error = none ∧ x.machine.statements = 3 ∧
      ∃ body, body.length = 3 ∧ x.machine.log.map Event.record = body ++ x.closing := by
  intro x
  have herror : x.error = none := by decide +kernel
  have hstatements : x.machine.statements = 3 := by decide +kernel
  obtain ⟨values, body, -, -, -, hlog, -, hcount⟩ :=
    log_replays_run Sink.collector (.start (utf8 "var a; a = 5; print a;") .empty [])
  have hlength : x.machine.statements = 0 + body.length := hcount herror
  exact ⟨herror, hstatements, body, by omega, hlog⟩

end StatementLang
