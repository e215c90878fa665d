import StatementLang.Command.Sources
import StatementLang.Proofs.Sessions
import StatementLang.Proofs.Unread

/-!
# Sinks only watch

A run hands its values to the sink and learns nothing from it but whether a value was taken. So
every run follows the run that collects its values: the two go through the same statements with the
same table, the same count and the same errors, up to the first value that the sink refuses. There
the run stops, with the table and the count that the collecting run has in front of that print
statement.
-/

namespace StatementLang

variable {σ τ : Type} {R : σ → τ → Prop}

/-- Only the sinks may differ. -/
def Likeness.ofStates (state : σ → τ → Prop) : Likeness σ τ := ⟨Eq, Eq, state⟩

theorem Token.Alike.eq {t u : Token} (h : t.Alike (.ofStates R) u) : t = u := by
  obtain ⟨l, p⟩ := t
  obtain ⟨k, q⟩ := u
  obtain ⟨hlexeme, hplace⟩ := h
  obtain rfl : l = k := hlexeme
  obtain rfl : p = q := hplace
  rfl

theorem Event.alike_self (e : Event) : e.Alike (Likeness.ofStates R) e := by
  cases e with
  | declared => exact .declared rfl
  | assigned => exact .assigned rfl
  | printed => exact .printed rfl
  | finished => exact .finished _ _

theorem Event.Alike.eq {e f : Event} (h : e.Alike (Likeness.ofStates R) f) : e = f := by
  cases h with
  | declared h => rw [h]
  | assigned h => rw [h]
  | printed h => rw [h]
  | finished => rfl

theorem RunError.Alike.eq {e f : RunError} (h : e.Alike (Likeness.ofStates R) f) : e = f := by
  cases h with
  | @program e f cause place =>
    obtain ⟨c, p⟩ := e
    obtain ⟨d, q⟩ := f
    obtain rfl : p = q := place
    cases cause with
    | unmatched h => rw [h]
    | same => rfl
  | output reason => rfl

theorem forall₂_eq {α : Type} {r : α → α → Prop} (hr : ∀ a b, r a b → a = b) {xs ys : List α}
    (h : List.Forall₂ r xs ys) : xs = ys :=
  List.forall₂_eq_eq_eq ▸ h.imp hr

theorem Scan.alike_self (s : Scan) : s.Alike (Likeness.ofStates R) s := by
  refine ⟨List.forall₂_same.mpr fun t _ => ⟨rfl, rfl⟩, ?_⟩
  cases s.error with
  | none => exact .none
  | some e => exact .some ⟨rfl, rfl⟩

theorem Scan.Alike.eq {s u : Scan} (h : s.Alike (Likeness.ofStates R) u) : s = u := by
  obtain ⟨ts, e⟩ := s
  obtain ⟨us, f⟩ := u
  obtain ⟨htokens, herror⟩ := h
  obtain rfl : ts = us := forall₂_eq (fun _ _ => Token.Alike.eq) htokens
  cases herror with
  | none => rfl
  | @some e f h =>
    obtain ⟨p, r⟩ := e
    obtain ⟨q, r'⟩ := f
    obtain ⟨hremainder, hplace⟩ := h
    obtain rfl : r = r' := hremainder
    obtain rfl : p = q := hplace
    rfl

namespace Machine

variable {m : Machine σ} {n : Machine τ}

def withSink (s : τ) (m : Machine σ) : Machine τ :=
  ⟨m.cursor, m.symbols, s, m.events, m.statements⟩

theorem alike_withSink (m : Machine σ) {s : τ} (h : R m.sink s) :
    m.Alike (.ofStates R) (m.withSink s) :=
  ⟨Scan.alike_self _, rfl, h, List.forall₂_same.mpr fun e _ => Event.alike_self e, rfl⟩

/-- Machines that differ in their sinks only pull the same. -/
theorem Alike.next_eq (h : m.Alike (.ofStates R) n) : n.cursor.next.1 = m.cursor.next.1 := by
  have hread := read_alike h
  cases hm : m.cursor.next.1 with
  | ok t =>
    cases hn : n.cursor.next.1 with
    | ok u =>
      rw [read_of_ok hm, read_of_ok hn] at hread
      cases hread with
      | ok htu => rw [htu.eq]
    | error f => rw [read_of_ok hm, read_of_error hn] at hread; cases hread
  | error e =>
    cases hn : n.cursor.next.1 with
    | ok u => rw [read_of_error hm, read_of_ok hn] at hread; cases hread
    | error f =>
      rw [read_of_error hm, read_of_error hn] at hread
      cases hread with
      | fail herr =>
        have hsame := herr.eq
        obtain ⟨p, r⟩ := e
        obtain ⟨q, r'⟩ := f
        simp only [ProgramError.ofLexError, RunError.program.injEq, ProgramError.mk.injEq,
          Cause.unmatched.injEq] at hsame
        rw [hsame.1, hsame.2]

end Machine

namespace Sink

variable {sink : Sink σ} {s : σ}

def Takes (sink : Sink σ) (s : σ) : List Int → Prop
  | [] => True
  | v :: values => (sink.emit s v).2 = none ∧ sink.Takes (sink.emit s v).1 values

@[simp] theorem takes_append {values more : List Int} :
    sink.Takes s (values ++ more) ↔
      sink.Takes s values ∧ sink.Takes (sink.deliver s values) more := by
  induction values generalizing s with
  | nil => simp [Takes]
  | cons v values ih =>
    rw [List.cons_append, Takes, Takes, ih, and_assoc]
    rfl

theorem takes_concat {values : List Int} {v : Int} :
    sink.Takes s (values ++ [v]) ↔
      sink.Takes s values ∧ (sink.emit (sink.deliver s values) v).2 = none := by
  rw [takes_append, Takes, Takes, and_true]

/-- The sink has taken what the collecting run has collected, newest first. -/
def Holds (sink : Sink σ) (s : σ) (collected : List Int) (now : σ) : Prop :=
  sink.Takes s collected.reverse ∧ now = sink.deliver s collected.reverse

theorem Holds.cons {collected : List Int} {now : σ} (h : sink.Holds s collected now) {v : Int}
    (hv : (sink.emit now v).2 = none) : sink.Holds s (v :: collected) (sink.emit now v).1 := by
  obtain ⟨htakes, rfl⟩ := h
  rw [Holds, List.reverse_cons, deliver_append]
  exact ⟨takes_concat.mpr ⟨htakes, hv⟩, rfl⟩

end Sink

/-- A collecting machine and one whose sink has taken the same values. -/
abbrev Likeness.following (sink : Sink σ) (s : σ) : Likeness (List Int) σ :=
  .ofStates (sink.Holds s)

namespace Machine

variable {sink : Sink σ} {s : σ} {v : Int}

/-- Rounds take the run from one statement boundary to another. -/
inductive Reaches (sink : Sink σ) : Machine σ → Machine σ → Prop
  | refl (m : Machine σ) : Reaches sink m m
  | round {m k n : Machine σ} (hm : m.round sink = .ok () k) (hk : Reaches sink k n) :
      Reaches sink m n

theorem Reaches.proceed_eq {m n : Machine σ} (h : m.Reaches sink n) :
    m.proceed sink = n.proceed sink := by
  induction h with
  | refl m => rfl
  | round hm _ ih => rw [proceed_of_round hm, ih]

/-- The next statement prints `v`. -/
def PrintsNext (m : Machine σ) (v : Int) : Prop :=
  ∃ t n, m.cursor.next.1 = .ok t ∧ t.kind = .print ∧ m.behind.expression = .ok v n

/-- The collecting run at the boundary `k` prints a value next that the sink does not take, after
all the values before it. What is left, `j`, has the table and the count of `k`. -/
structure Refused (sink : Sink σ) (s : σ) (k : Machine (List Int)) (v : Int) (reason : Bytes)
    (j : Machine σ) : Prop where
  prints : k.PrintsNext v
  taken : sink.Takes s k.sink.reverse
  refused : sink.emit (sink.deliver s k.sink.reverse) v = (j.sink, some reason)
  symbols : j.symbols = k.symbols
  statements : j.statements = k.statements

/-- The sink of `n` does not take `v`, the value in front of `m`, and `j` is what is left. -/
structure Declined (sink : Sink σ) (m : Machine (List Int)) (n : Machine σ) (v : Int)
    (reason : Bytes) (j : Machine σ) : Prop where
  value : ∃ k, m.expression = .ok v k
  emitted : sink.emit n.sink v = (j.sink, some reason)
  symbols : j.symbols = n.symbols
  statements : j.statements = n.statements

variable {m : Machine (List Int)} {n : Machine σ}

/-- Printing goes as for the collector, unless the sink refuses the value. -/
theorem printing_follows (h : m.Alike (.following sink s) n) (pos : Position) :
    Outcome.Alike (.following sink s) Eq (m.printing Sink.collector pos) (n.printing sink pos) ∨
    ∃ v reason j, Declined sink m n v reason j ∧
      n.printing sink pos = .fail (.output reason) j := by
  have hexp := expression_alike h
  rw [printing, printing]
  cases hm : m.expression with
  | fail e m' =>
    cases hn : n.expression with
    | fail f n' =>
      rw [hm, hn] at hexp
      cases hexp with
      | fail error machine => exact .inl (.fail error machine)
    | ok w n' => rw [hm, hn] at hexp; cases hexp
  | ok v m' =>
    cases hn : n.expression with
    | fail f n' => rw [hm, hn] at hexp; cases hexp
    | ok w n' =>
      rw [hm, hn] at hexp
      cases hexp with
      | ok hvw hmn =>
        subst hvw
        obtain ⟨rfl, -⟩ := lexemes_of_expression hm
        obtain ⟨rfl, -⟩ := lexemes_of_expression hn
        have hstate : sink.Holds s m.sink n.sink := h.state
        simp only [Outcome.ok_andThen, Sink.collector, behind_sink]
        cases hemit : sink.emit n.sink v with
        | mk now reason =>
          cases reason with
          | none =>
            have hnow := hstate.cons (v := v) (by rw [hemit])
            rw [hemit] at hnow
            exact .inl (.ok rfl (record_alike
              ⟨hmn.feed, hmn.symbols, hnow, hmn.events, hmn.statements⟩ (.printed rfl)))
          | some reason =>
            exact .inr ⟨v, reason, { n.behind with sink := now }, ⟨⟨_, hm⟩, hemit, rfl, rfl⟩, rfl⟩

theorem statement_follows (h : m.Alike (.following sink s) n) (t : Token) :
    Outcome.Alike (.following sink s) Eq (m.statement Sink.collector t) (n.statement sink t) ∨
    ∃ v reason j, t.kind = .print ∧ Declined sink m n v reason j ∧
      n.statement sink t = .fail (.output reason) j := by
  simp only [statement]
  cases hk : t.kind with
  | var => exact .inl (declaration_alike h)
  | ident => exact .inl (assignment_alike h ⟨rfl, rfl⟩)
  | print =>
    rcases printing_follows h t.pos with halike | ⟨v, reason, j, hdeclined, hfail⟩
    · exact .inl halike
    · exact .inr ⟨v, reason, j, rfl, hdeclined, hfail⟩
  | _ => exact .inl (unexpected_alike .statement h ⟨rfl, rfl⟩)

/-- A round goes as for the collector, unless the sink refuses the value it prints. -/
theorem round_follows (h : m.Alike (.following sink s) n) :
    Outcome.Alike (.following sink s) Eq (m.round Sink.collector) (n.round sink) ∨
    ∃ v reason j, n.round sink = .fail (.output reason) j ∧ Refused sink s m v reason j := by
  have hread := read_alike h
  have hnext := h.next_eq
  cases hc : m.cursor.next.1 with
  | error e =>
    rw [read_of_error hc, read_of_error (hnext.trans hc)] at hread
    rw [round, round, read_of_error hc, read_of_error (hnext.trans hc)]
    cases hread with
    | fail error machine => exact .inl (.fail error machine)
  | ok t =>
    rw [read_of_ok hc, read_of_ok (hnext.trans hc)] at hread
    rw [round, round, read_of_ok hc, read_of_ok (hnext.trans hc)]
    cases hread with
    | ok _ hmn =>
      rcases statement_follows hmn t with hst | ⟨v, reason, j, hk, hdeclined, hst⟩
      · refine .inl (hst.andThen fun _ _ m n _ hmn => ?_)
        refine (read_alike hmn).andThen fun a b m n hab hmn => ?_
        rw [hab.lexeme]
        split
        · refine .ok rfl ⟨hmn.feed, hmn.symbols, hmn.state, hmn.events, ?_⟩
          rw [hmn.statements]
        · exact unexpected_alike .semicolon hmn hab
      · obtain ⟨htaken, hnow⟩ : sink.Holds s m.sink n.sink := h.state
        obtain ⟨k, hvalue⟩ := hdeclined.value
        refine .inr ⟨v, reason, j, ?_, ⟨⟨t, k, hc, hk, hvalue⟩, htaken, ?_, ?_, ?_⟩⟩
        · simp only [Outcome.ok_andThen, hst, Outcome.fail_andThen]
        · rw [← hnow]
          exact hdeclined.emitted
        · rw [hdeclined.symbols, behind_symbols, h.symbols]
        · rw [hdeclined.statements, behind_statements, h.statements]

/-- A run goes as for the collector, up to the first value that the sink refuses. -/
theorem proceed_follows (h : m.Alike (.following sink s) n) :
    Outcome.Alike (.following sink s) Eq (m.proceed Sink.collector) (n.proceed sink) ∨
    ∃ k v reason j, m.Reaches Sink.collector k ∧ Refused sink s k v reason j ∧
      n.proceed sink = .fail (.output reason) j := by
  -- both machines take the same rounds, and the sink only matters in one that prints
  induction m using round_induction Sink.collector generalizing n with
  | step m ih =>
    have hnext := h.next_eq
    by_cases hend : ∃ t, m.cursor.next.1 = .ok t ∧ t.kind = .eof
    · obtain ⟨t, ht, hk⟩ := hend
      have hread := read_alike h
      rw [read_of_ok ht, read_of_ok (hnext.trans ht)] at hread
      cases hread with
      | ok _ hmn =>
        rw [proceed, proceed, read_of_ok ht, read_of_ok (hnext.trans ht), Outcome.ok_andThen,
          Outcome.ok_andThen, loop_eq, loop_eq, if_pos hk, if_pos hk, hmn.statements, hmn.symbols]
        exact .inl (.ok rfl (record_alike hmn (.finished _ _)))
    · have hne : ∀ t, m.cursor.next.1 = .ok t → t.kind ≠ .eof := fun t ht hk => hend ⟨t, ht, hk⟩
      rw [proceed_eq_round hne, proceed_eq_round (m := n) (hnext ▸ hne)]
      rcases round_follows h with hround | ⟨v, reason, j, hround, hrefused⟩
      · cases hm : m.round Sink.collector with
        | fail e m' =>
          rw [hm] at hround
          generalize n.round sink = y at hround ⊢
          cases hround with
          | fail error machine => exact .inl (.fail error machine)
        | ok u m' =>
          rw [hm] at hround
          generalize n.round sink = y at hround ⊢
          cases hround with
          | ok _ hmn =>
            rcases ih m' hm hmn with halike | ⟨k, v, reason, j, hreach, hrefused, hj⟩
            · exact .inl halike
            · exact .inr ⟨k, v, reason, j, .round hm hreach, hrefused, hj⟩
      · exact .inr ⟨m, v, reason, j, .refl m, hrefused, by rw [hround]; rfl⟩

/-- A collecting run keeps what has been collected. -/
theorem sink_suffix_proceed (m : Machine (List Int)) :
    m.sink <:+ (m.proceed Sink.collector).machine.sink := by
  let L : Likeness (List Int) (List Int) := .ofStates fun new all => all = new ++ m.sink
  have hcarries : L.Carries Sink.collector Sink.collector := by
    rintro new all v rfl
    exact ⟨rfl, rfl⟩
  have hstart : (m.withSink []).Alike L m := (m.withSink []).alike_withSink (s := m.sink) rfl
  have hrun : Outcome.Alike L Eq ((m.withSink []).proceed Sink.collector)
      (m.proceed Sink.collector) :=
    (read_alike hstart).andThen fun _ _ _ _ htu hmn => loop_alike hcarries htu hmn
  generalize (m.withSink []).proceed Sink.collector = x at hrun
  generalize m.proceed Sink.collector = y at hrun ⊢
  cases hrun with
  | ok _ machine => exact ⟨_, machine.state.symm⟩
  | fail _ machine => exact ⟨_, machine.state.symm⟩

/-- A value that is printed next has been collected in the end. -/
theorem cons_suffix_proceed {k : Machine (List Int)} (h : k.PrintsNext v) :
    (v :: k.sink) <:+ (k.proceed Sink.collector).machine.sink := by
  obtain ⟨t, n, ht, hk, hexp⟩ := h
  obtain ⟨rfl, -⟩ := lexemes_of_expression hexp
  have hne : t.kind ≠ .eof := by rw [hk]; decide
  obtain ⟨j, hj, hsink⟩ : ∃ j, k.behind.statement Sink.collector t = .ok () j ∧
      j.sink = v :: k.sink := by
    refine ⟨{ k.behind.behind with sink := v :: k.sink }.record (.printed v t.pos), ?_, rfl⟩
    simp only [statement, hk, printing, hexp, Outcome.ok_andThen, Sink.collector, behind_sink]
  rw [proceed_eq, read_of_ok ht, Outcome.ok_andThen, if_neg hne, hj, Outcome.ok_andThen, ← hsink]
  cases hc : j.cursor.next.1 with
  | error e =>
    rw [read_of_error hc]
    exact List.suffix_refl _
  | ok u =>
    rw [read_of_ok hc, Outcome.ok_andThen]
    split
    · exact sink_suffix_proceed { j.behind with statements := j.behind.statements + 1 }
    · exact List.suffix_refl _

end Machine

/-- The runs end in the same way and leave the same table, count and log. -/
structure Execution.EndsLike (e : Execution σ) (f : Execution τ) : Prop where
  error : e.error = f.error
  symbols : e.machine.symbols = f.machine.symbols
  statements : e.machine.statements = f.machine.statements
  log : e.machine.log = f.machine.log

section

variable {sink : Sink σ} {s : σ} {src : Bytes} {symbols : SymbolTable}

/-- A run ends like the collecting run, its sink having taken all the values, or it stops at the
first value that its sink does not take. -/
theorem execute_follows (sink : Sink σ) (src : Bytes) (symbols : SymbolTable) (s : σ) :
    let collected := execute Sink.collector src symbols []
    let run := execute sink src symbols s
    (run.EndsLike collected ∧ sink.Holds s collected.machine.sink run.machine.sink) ∨
    ∃ k v reason, (Machine.start src symbols []).Reaches Sink.collector k ∧
      Machine.Refused sink s k v reason run.machine ∧ run.error = some (.output reason) := by
  intro collected run
  let m : Machine (List Int) := .start src symbols []
  have hstart : m.Alike (.following sink s) (.start src symbols s) :=
    m.alike_withSink ⟨trivial, rfl⟩
  have hrun : run = ((Machine.start src symbols s).proceed sink).execution := rfl
  have hcollected : collected = (m.proceed Sink.collector).execution := rfl
  rw [hrun, hcollected]
  rcases Machine.proceed_follows hstart with halike | ⟨k, v, reason, j, hreach, hrefused, hj⟩
  · left
    generalize m.proceed Sink.collector = x at halike
    generalize (Machine.start src symbols s).proceed sink = y at halike
    have hlog : ∀ {m : Machine (List Int)} {n : Machine σ}, m.Alike (.following sink s) n →
        n.log = m.log := fun h =>
      congrArg List.reverse (forall₂_eq (fun _ _ => Event.Alike.eq) h.events).symm
    cases halike with
    | ok _ h => exact ⟨⟨rfl, h.symbols.symm, h.statements.symm, hlog h⟩, h.state⟩
    | fail herr h =>
      exact ⟨⟨congrArg some herr.eq.symm, h.symbols.symm, h.statements.symm, hlog h⟩, h.state⟩
  · rw [hj]
    exact .inr ⟨k, v, reason, hreach, hrefused, rfl⟩

/-- The collecting run has collected what it had at a boundary, the value printed next and more. -/
theorem collected_of_reaches {k : Machine (List Int)} {v : Int}
    (hk : (Machine.start src symbols []).Reaches Sink.collector k) (hv : k.PrintsNext v) :
    ∃ later, (execute Sink.collector src symbols []).machine.sink.reverse =
      k.sink.reverse ++ v :: later := by
  have hmachine : (execute Sink.collector src symbols []).machine =
      (k.proceed Sink.collector).machine := by
    rw [← hk.proceed_eq, execute_eq_proceed]
    cases (Machine.start src symbols []).proceed Sink.collector <;> rfl
  obtain ⟨later, hlater⟩ := Machine.cons_suffix_proceed hv
  refine ⟨later.reverse, ?_⟩
  rw [hmachine, ← hlater]
  simp

/-- A sink that takes every value makes no difference, and is handed what the collector is. -/
theorem execute_of_reliable (hs : sink.Reliable) (src : Bytes) (symbols : SymbolTable) (s : σ) :
    let collected := execute Sink.collector src symbols []
    (execute sink src symbols s).EndsLike collected ∧
      (execute sink src symbols s).machine.sink =
        sink.deliver s collected.machine.sink.reverse := by
  rcases execute_follows sink src symbols s with ⟨hends, -, hsink⟩ | ⟨k, v, reason, -, hrefused, -⟩
  · exact ⟨hends, hsink⟩
  · have htaken := hs (sink.deliver s k.sink.reverse) v
    rw [hrefused.refused] at htaken
    cases htaken

namespace Sink

/-- From the state `s` on, the sink takes values until it is handed the `n`-th, which it refuses.
What it has taken can be read off its state; the value it refuses is not part of it. -/
structure FailsAt (sink : Sink σ) (s : σ) (record : σ → List Int) (n : Nat) (reason : Bytes) :
    Prop where
  taken : ∀ values v, values.length + 1 < n → (sink.emit (sink.deliver s values) v).2 = none
  refused : ∀ values v, values.length + 1 = n →
    (sink.emit (sink.deliver s values) v).2 = some reason
  recorded : ∀ values, values.length < n → record (sink.deliver s values) = values
  kept : ∀ values v, values.length + 1 = n → record (sink.emit (sink.deliver s values) v).1 = values

variable {record : σ → List Int} {n : Nat} {reason : Bytes}

theorem FailsAt.takes_iff (h : sink.FailsAt s record n reason) (hn : 1 ≤ n) (values : List Int) :
    sink.Takes s values ↔ values.length < n := by
  induction values using List.reverseRecOn with
  | nil => exact iff_of_true trivial hn
  | append_singleton values v ih =>
    rw [takes_concat, ih, List.length_append, List.length_singleton]
    rcases Nat.lt_trichotomy (values.length + 1) n with hlt | heq | hgt
    · exact iff_of_true ⟨by omega, h.taken values v hlt⟩ hlt
    · refine iff_of_false (fun hv => ?_) (by omega)
      rw [h.refused values v heq] at hv
      cases hv.2
    · exact iff_of_false (fun hv => absurd hv.1 (by omega)) (by omega)

theorem deliver_failingAt {values : List Int} (h : values.length < n) :
    (failingAt n).deliver ⟨0, []⟩ values = ⟨values.length, values.reverse⟩ := by
  induction values using List.reverseRecOn with
  | nil => rfl
  | append_singleton values v ih =>
    rw [List.length_append, List.length_singleton] at h
    rw [deliver_append, ih (by omega)]
    simp [deliver, failingAt, h.ne]

theorem failsAt_failingAt (n : Nat) :
    (failingAt n).FailsAt ⟨0, []⟩ (fun s => s.values.reverse) n (utf8 "sink full") where
  taken values v h := by
    rw [deliver_failingAt (by omega)]
    simp [failingAt, h.ne]
  refused values v h := by
    rw [deliver_failingAt (by omega)]
    simp [failingAt, h]
  recorded values h := by
    rw [deliver_failingAt h]
    simp
  kept values v h := by
    rw [deliver_failingAt (by omega)]
    simp [failingAt, h]

end Sink

variable {record : σ → List Int} {n : Nat} {reason : Bytes}

/-- A sink that would refuse a later value only makes no difference. -/
theorem execute_of_failsAt_later (h : sink.FailsAt s record n reason)
    (hn : (execute Sink.collector src symbols []).machine.sink.reverse.length < n) :
    let collected := execute Sink.collector src symbols []
    (execute sink src symbols s).EndsLike collected ∧
      record (execute sink src symbols s).machine.sink = collected.machine.sink.reverse := by
  rcases execute_follows sink src symbols s with
    ⟨hends, -, hsink⟩ | ⟨k, v, reason', hreach, hrefused, -⟩
  · exact ⟨hends, by rw [hsink, h.recorded _ hn]⟩
  · obtain ⟨later, hlater⟩ := collected_of_reaches hreach hrefused.prints
    have hlen : k.sink.reverse.length + 1 < n := by
      rw [hlater, List.length_append, List.length_cons] at hn
      omega
    have htaken := h.taken _ v hlen
    rw [hrefused.refused] at htaken
    cases htaken

/-- A sink that refuses the `n`-th value stops the run there, with what the collecting run has in
front of its `n`-th print statement. -/
theorem execute_of_failsAt (h : sink.FailsAt s record n reason) (hpos : 1 ≤ n)
    (hn : n ≤ (execute Sink.collector src symbols []).machine.sink.reverse.length) :
    let values := (execute Sink.collector src symbols []).machine.sink.reverse
    let run := execute sink src symbols s
    run.error = some (.output reason) ∧ record run.machine.sink = values.take (n - 1) ∧
      ∃ k v, (Machine.start src symbols []).Reaches Sink.collector k ∧ k.PrintsNext v ∧
        k.sink.reverse = values.take (n - 1) ∧ values[n - 1]? = some v ∧
        run.machine.symbols = k.symbols ∧ run.machine.statements = k.statements := by
  intro values run
  rcases execute_follows sink src symbols s with
    ⟨-, htakes, -⟩ | ⟨k, v, reason', hreach, hrefused, herr⟩
  · rw [h.takes_iff hpos] at htakes
    omega
  · obtain ⟨later, hlater⟩ := collected_of_reaches hreach hrefused.prints
    have hless := (h.takes_iff hpos _).mp hrefused.taken
    have hlen : k.sink.reverse.length + 1 = n := by
      by_contra hne
      have htaken := h.taken k.sink.reverse v (by omega)
      rw [hrefused.refused] at htaken
      cases htaken
    have hfront : k.sink.reverse.length = n - 1 := by omega
    have htake : k.sink.reverse = values.take (n - 1) := by
      show _ = List.take _ (execute Sink.collector src symbols []).machine.sink.reverse
      rw [hlater, ← hfront, List.take_left]
    have hvalue : values[n - 1]? = some v := by
      show (execute Sink.collector src symbols []).machine.sink.reverse[n - 1]? = _
      rw [hlater, ← hfront, List.getElem?_append_right (Nat.le_refl _), Nat.sub_self]
      rfl
    have hreason := h.refused _ v hlen
    have hkept := h.kept _ v hlen
    rw [hrefused.refused] at hreason hkept
    obtain rfl : reason' = reason := Option.some.inj hreason
    exact ⟨herr, hkept.trans htake, k, v, hreach, hrefused.prints, htake, hvalue,
      hrefused.symbols, hrefused.statements⟩

end

theorem discard_reliable : Sink.discard.Reliable := fun _ _ => rfl

theorem collector_reliable : Sink.collector.Reliable := fun _ _ => rfl

/-- Checking a file and running it fail alike. -/
@[simp] theorem failure_checkFile (c : Context) (files : FileTree) (path : Bytes) :
    (checkFile files path).failure = (c.runFile files path).failure := by
  rw [checkFile, Context.runFile]
  cases readSource files path with
  | error f => rfl
  | ok src =>
    have hchecked := (execute_of_reliable discard_reliable src .empty ()).1.error
    have hwritten := (execute_of_reliable writer_reliable src .empty []).1.error
    simp only [hchecked, hwritten]
    cases (execute Sink.collector src .empty []).error <;> rfl

theorem checkOut_ne_nil_iff (c : Context) (r : CheckResult) :
    c.checkOut r ≠ [] ↔ r.failure = none := by
  rw [Context.checkOut]
  cases r.failure with
  | none => simp [line]
  | some f => simp

/-- Sinks watch a run and do not change it, up to the first value that one of them refuses.
Collecting the values, writing them and dropping them, as is done where no sink is given, all give
the same error, table, count and log, and the text written is the collected values, one a line. With
a sink that refuses its `n`-th value, a run that prints fewer values is the same too. Any other run
ends with the sink's reason: the sink has the values before the `n`-th, and table and count are
those of the collecting run right before the statement that prints it. So a check calls a file good
exactly if running it does not fail, and otherwise reports the same failure. -/
theorem sinks_only_watch (src : Bytes) (symbols : SymbolTable) :
    let collected := execute Sink.collector src symbols []
    let written := execute Sink.writer src symbols []
    let values := collected.machine.sink.reverse
    ((execute Sink.discard src symbols ()).EndsLike collected ∧ written.EndsLike collected ∧
      Sink.written written.machine.sink = values.flatMap fun v => line (intText v)) ∧
    (∀ (σ : Type) (sink : Sink σ) (s : σ) (record : σ → List Int) (n : Nat) (reason : Bytes),
      1 ≤ n → sink.FailsAt s record n reason →
      let run := execute sink src symbols s
      (values.length < n → run.EndsLike collected ∧ record run.machine.sink = values) ∧
      (n ≤ values.length →
        run.error = some (.output reason) ∧ (RunError.output reason).kind? = none ∧
        record run.machine.sink = values.take (n - 1) ∧
        ∃ k v, (Machine.start src symbols []).Reaches Sink.collector k ∧ k.PrintsNext v ∧
          k.sink.reverse = values.take (n - 1) ∧ values[n - 1]? = some v ∧
          run.machine.symbols = k.symbols ∧ run.machine.statements = k.statements)) ∧
    ∀ (c : Context) (files : FileTree) (path : Bytes),
      (c.checkOut (checkFile files path) ≠ [] ↔ (c.runFile files path).failure = none) ∧
        (checkFile files path).failure = (c.runFile files path).failure := by
  intro collected written values
  obtain ⟨hwritten, hsink⟩ := execute_of_reliable writer_reliable src symbols []
  refine ⟨⟨(execute_of_reliable discard_reliable src symbols ()).1, hwritten, ?_⟩, ?_, ?_⟩
  · rw [hsink, written_deliver]
    rfl
  · intro σ sink s record n reason hpos h
    refine ⟨execute_of_failsAt_later h, fun hn => ?_⟩
    obtain ⟨herr, hrecord, hstop⟩ := execute_of_failsAt h hpos hn
    exact ⟨herr, rfl, hrecord, hstop⟩
  · intro c files path
    have hfailure := failure_checkFile c files path
    exact ⟨by rw [checkOut_ne_nil_iff, hfailure], hfailure⟩

/-- The whole run prints two values and then fails. A sink that would refuse a third one makes no
difference; one that refuses the second stops the run in front of it. -/
theorem sinks_only_watch_second :
    let src := utf8 "var a; a = 4; print a; print 7; print b;"
    let collected := execute Sink.collector src .empty []
    let run := fun n => execute (Sink.failingAt n) src .empty ⟨0, []⟩
    collected.machine.sink.reverse = [4, 7] ∧
    collected.error = some (.program ⟨.symbol (.undefined (utf8 "b")), ⟨1, 39, 38⟩⟩) ∧
    (run 3).EndsLike collected ∧
    (run 2).error = some (.output (utf8 "sink full")) ∧
    (run 2).machine.sink.values.reverse = [4] ∧
    ∃ k, (Machine.start src .empty []).Reaches Sink.collector k ∧ k.PrintsNext 7 ∧
      (run 2).machine.symbols = k.symbols ∧ (run 2).machine.statements = k.statements := by
  intro src collected run
  have hvalues : collected.machine.sink.reverse = [4, 7] := by decide +kernel
  have hfails := (sinks_only_watch src .empty).2.1
  have hthird := (hfails _ _ _ _ 3 _ (by decide) (Sink.failsAt_failingAt 3)).1
    (by rw [hvalues]; decide)
  have hsecond := (hfails _ _ _ _ 2 _ (by decide) (Sink.failsAt_failingAt 2)).2
    (by rw [hvalues]; decide)
  rw [hvalues] at hsecond
  obtain ⟨herr, -, hrecord, k, v, hreach, hprints, -, hv, hsymbols, hcount⟩ := hsecond
  obtain rfl : 7 = v := Option.some.inj hv
  exact ⟨hvalues, by decide +kernel, hthird.1, herr, hrecord, k, hreach, hprints, hsymbols, hcount⟩

end StatementLang
