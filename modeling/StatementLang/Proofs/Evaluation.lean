import StatementLang.Proofs.Program
import StatementLang.Proofs.Reading

/-!
# Running is evaluating

The machine recognises a statement token by token and executes it on the way; the evaluator works
on the tree. A machine whose feed spells a program goes through it as the evaluator does, one
statement at a time, and a machine that comes to its end has read a program that evaluates. So a
run succeeds exactly on the spellings of programs with a value, and does what the value says.
-/

namespace StatementLang

variable {σ : Type}

def Sink.Reliable (sink : Sink σ) : Prop := ∀ s v, (sink.emit s v).2 = none

/-- The sink's state after it has been handed the values in order. -/
def Sink.deliver (sink : Sink σ) (s : σ) (values : List Int) : σ :=
  values.foldl (fun s v => (sink.emit s v).1) s

@[simp] theorem Sink.deliver_nil (sink : Sink σ) (s : σ) : sink.deliver s [] = s := rfl

@[simp] theorem Sink.deliver_append (sink : Sink σ) (s : σ) (values more : List Int) :
    sink.deliver s (values ++ more) = sink.deliver (sink.deliver s values) more :=
  List.foldl_append ..

theorem literalValue?_eq_value? (digits : Bytes) (store : Store) :
    (literalValue? digits).map Int.ofNat = (Expression.number digits).value? store := by
  rw [literalValue?_eq, Expression.value?]
  have hmax : maxValue = 2 ^ 63 - 1 := by decide
  rw [hmax]
  split <;> rfl

/-- A token has a value exactly if it spells an expression with that value. -/
theorem evaluate_eq_ok_iff {symbols : SymbolTable} {t : Token} {v : Int} :
    evaluate symbols t = .ok v ↔
      ∃ e : Expression, t.toLexeme = e.lexeme ∧ e.value? symbols.store = some v := by
  obtain ⟨⟨kind, literal⟩, pos⟩ := t
  constructor
  · intro h
    cases kind with
    | ident =>
      simp only [evaluate] at h
      split at h
      · rename_i w hw
        injection h with h
        exact ⟨.name literal, rfl, by rw [← h]; exact SymbolTable.lookup_eq_ok_iff.mp hw⟩
      · cases h
    | int =>
      simp only [evaluate] at h
      split at h
      · rename_i n hn
        injection h with h
        refine ⟨.number literal, rfl, ?_⟩
        rw [← literalValue?_eq_value?, hn, ← h]
        rfl
      · cases h
    | _ => cases h
  · rintro ⟨e, he, hv⟩
    cases e with
    | name x =>
      obtain ⟨rfl, rfl⟩ : kind = .ident ∧ literal = x := by simpa using he
      simp only [evaluate, SymbolTable.lookup_eq_ok_iff.mpr hv]
    | number digits =>
      obtain ⟨rfl, rfl⟩ : kind = .int ∧ literal = digits := by simpa using he
      rw [← literalValue?_eq_value?] at hv
      obtain ⟨n, hn, rfl⟩ := Option.map_eq_some_iff.mp hv
      simp only [evaluate, hn]
      rfl

namespace Machine

variable {sink : Sink σ} {m n : Machine σ} {t : Token} {rest : List Lexeme} {store final : Store}
  {v : Int} {values : List Int}

theorem expression_of_lexemes {e : Expression} (h : m.feed.lexemes = e.lexeme :: rest)
    (hv : e.value? m.symbols.store = some v) :
    m.expression = .ok v m.behind ∧ m.behind.feed.lexemes = rest ∧
      m.behind.feed.error = m.feed.error := by
  obtain ⟨t, hr, ht, hrest, herr⟩ := read_of_lexemes h e.kind_lexeme.1
  refine ⟨?_, hrest, herr⟩
  have hev : evaluate m.behind.symbols t = .ok v := evaluate_eq_ok_iff.mpr ⟨e, ht, hv⟩
  simp only [expression, hr, Outcome.ok_andThen, hev]

theorem lexemes_of_expression (h : m.expression = .ok v n) :
    n = m.behind ∧ ∃ e : Expression, m.feed.lexemes = e.lexeme :: n.feed.lexemes ∧
      e.value? m.symbols.store = some v := by
  obtain ⟨t, n', hr, hev⟩ := Outcome.andThen_eq_ok_iff.mp h
  split at hev
  · rename_i w hw
    injection hev with hv hn
    subst hv hn
    obtain ⟨e, he, hval⟩ := evaluate_eq_ok_iff.mp hw
    obtain ⟨rfl, -, hlex, -⟩ := lexemes_of_read hr (by rw [he]; exact e.kind_lexeme.1)
    exact ⟨rfl, e, by rw [hlex, he], hval⟩
  · cases hev

/-- `n` is `m` after everything before `rest` has been read, with its effect on the store and on
the sink. -/
structure Yields (sink : Sink σ) (m n : Machine σ) (rest : List Lexeme) (store : Store)
    (values : List Int) : Prop where
  lexemes : n.feed.lexemes = rest
  error : n.feed.error = m.feed.error
  store : n.symbols.store = store
  sink : n.sink = sink.deliver m.sink values
  statements : n.statements = m.statements

theorem declaration_of_lexemes {x : Bytes} (h : m.feed.lexemes = ⟨.ident, x⟩ :: rest)
    (hx : x ∉ m.symbols.store) :
    ∃ n, m.declaration = .ok () n ∧ m.Yields sink n rest (m.symbols.store.insert x 0) [] := by
  obtain ⟨t, hr, ht, hrest, herr⟩ := read_of_lexemes h (by simp)
  obtain ⟨symbols, hd, hstore⟩ := SymbolTable.declare_of_notMem hx
  have hk : t.kind = .ident := by rw [ht]
  have hl : t.literal = x := by rw [ht]
  refine ⟨{ m.behind with symbols }.record (.declared x t.pos), ?_, ?_⟩
  · simp only [declaration, hr, Outcome.ok_andThen, hk, if_true, hl, behind_symbols, hd]
  · exact ⟨hrest, herr, hstore, rfl, rfl⟩

theorem assignment_of_lexemes {e : Expression} (hx : t.literal ∈ m.symbols.store)
    (h : m.feed.lexemes = ⟨.assign, [61]⟩ :: e.lexeme :: rest)
    (hv : e.value? m.symbols.store = some v) :
    ∃ n, m.assignment t = .ok () n ∧
      m.Yields sink n rest (m.symbols.store.insert t.literal v) [] := by
  obtain ⟨old, hold⟩ := Finmap.mem_iff.mp hx
  obtain ⟨a, hr, ha, hlex, herr⟩ := read_of_lexemes h (by simp)
  have hk : a.kind = .assign := by rw [ha]
  obtain ⟨hexp, hrest, herr'⟩ := expression_of_lexemes hlex hv
  refine ⟨{ m.behind.behind with symbols := m.symbols.set t.literal v }.record
    (.assigned t.literal v t.pos), ?_, ?_⟩
  · simp only [assignment, SymbolTable.lookup_eq_ok_iff.mpr hold, hr, Outcome.ok_andThen, hk,
      if_true, hexp, behind_symbols]
  · exact ⟨hrest, herr'.trans herr, SymbolTable.store_set hx v, rfl, rfl⟩

theorem printing_of_lexemes (hs : sink.Reliable) {e : Expression} (pos : Position)
    (h : m.feed.lexemes = e.lexeme :: rest) (hv : e.value? m.symbols.store = some v) :
    ∃ n, m.printing sink pos = .ok () n ∧ m.Yields sink n rest m.symbols.store [v] := by
  obtain ⟨hexp, hrest, herr⟩ := expression_of_lexemes h hv
  have hemit : sink.emit m.behind.sink v = ((sink.emit m.sink v).1, none) :=
    Prod.ext rfl (hs m.sink v)
  refine ⟨{ m.behind with sink := (sink.emit m.sink v).1 }.record (.printed v pos), ?_, ?_⟩
  · simp only [printing, hexp, Outcome.ok_andThen, hemit]
  · exact ⟨hrest, herr, rfl, rfl, rfl⟩

/-- A statement in front of the machine is executed as it is evaluated. -/
theorem statement_of_lexemes (hs : sink.Reliable) {s : Statement}
    (h : t.toLexeme :: m.feed.lexemes = s.lexemes ++ rest)
    (he : s.eval? m.symbols.store = some (store, values)) :
    ∃ n, m.statement sink t = .ok () n ∧ m.Yields sink n rest store values := by
  cases s with
  | declare x =>
    obtain ⟨ht, hlex⟩ : t.toLexeme = ⟨.var, varWord⟩ ∧ m.feed.lexemes = ⟨.ident, x⟩ :: rest := by
      simpa using h
    have hk : t.kind = .var := by rw [ht]
    obtain ⟨hx, rfl, rfl⟩ := Statement.eval?_declare_eq_some_iff.mp he
    simpa only [statement, hk] using declaration_of_lexemes hlex hx
  | assign x e =>
    obtain ⟨ht, hlex⟩ : t.toLexeme = ⟨.ident, x⟩ ∧
        m.feed.lexemes = ⟨.assign, [61]⟩ :: e.lexeme :: rest := by
      simpa using h
    have hk : t.kind = .ident := by rw [ht]
    have hl : t.literal = x := by rw [ht]
    subst hl
    obtain ⟨hx, v, hv, rfl, rfl⟩ := Statement.eval?_assign_eq_some_iff.mp he
    simpa only [statement, hk] using assignment_of_lexemes hx hlex hv
  | print e =>
    obtain ⟨ht, hlex⟩ : t.toLexeme = ⟨.print, printWord⟩ ∧ m.feed.lexemes = e.lexeme :: rest := by
      simpa using h
    have hk : t.kind = .print := by rw [ht]
    obtain ⟨v, hv, rfl, rfl⟩ := Statement.eval?_print_eq_some_iff.mp he
    simpa only [statement, hk] using printing_of_lexemes hs t.pos hlex hv

theorem lexemes_of_declaration (h : m.declaration = .ok () n) :
    ∃ x rest, m.feed.lexemes = ⟨.ident, x⟩ :: rest ∧ x ∉ m.symbols.store := by
  obtain ⟨t, m', hr, hd⟩ := Outcome.andThen_eq_ok_iff.mp h
  split at hd
  · rename_i hk
    obtain ⟨rfl, -, hlex, -⟩ := lexemes_of_read hr (by rw [hk]; simp)
    refine ⟨t.literal, m.behind.feed.lexemes, by rw [hlex, ← hk], fun hx => ?_⟩
    rw [behind_symbols, SymbolTable.declare_of_mem hx] at hd
    cases hd
  · cases hd

theorem lexemes_of_assignment (h : m.assignment t = .ok () n) :
    t.literal ∈ m.symbols.store ∧ ∃ (e : Expression) (rest : List Lexeme),
      m.feed.lexemes = ⟨.assign, [61]⟩ :: e.lexeme :: rest ∧ (e.value? m.symbols.store).isSome := by
  simp only [assignment] at h
  split at h
  · cases h
  · rename_i old hold
    obtain ⟨a, m', hr, ha⟩ := Outcome.andThen_eq_ok_iff.mp h
    split at ha
    · rename_i hk
      obtain ⟨rfl, hwf, hlex, -⟩ := lexemes_of_read hr (by rw [hk]; simp)
      obtain ⟨v, m'', hexp, -⟩ := Outcome.andThen_eq_ok_iff.mp ha
      obtain ⟨rfl, e, hrest, hv⟩ := lexemes_of_expression hexp
      have hx := Finmap.mem_of_lookup_eq_some (SymbolTable.lookup_eq_ok_iff.mp hold)
      refine ⟨hx, e, m.behind.behind.feed.lexemes, ?_, ?_⟩
      · rw [hlex, hrest, hwf.eq_of_kind .assign hk rfl]
      · rw [behind_symbols] at hv
        simp [hv]
    · cases ha

theorem lexemes_of_printing {pos : Position} (h : m.printing sink pos = .ok () n) :
    ∃ (e : Expression) (rest : List Lexeme), m.feed.lexemes = e.lexeme :: rest ∧
      (e.value? m.symbols.store).isSome := by
  obtain ⟨v, m', hexp, -⟩ := Outcome.andThen_eq_ok_iff.mp h
  obtain ⟨rfl, e, hlex, hv⟩ := lexemes_of_expression hexp
  exact ⟨e, _, hlex, by simp [hv]⟩

/-- A statement that was executed was in front of the machine and has a value. -/
theorem lexemes_of_statement (ht : t.toLexeme.WellFormed) (h : m.statement sink t = .ok () n) :
    ∃ (s : Statement) (rest : List Lexeme), t.toLexeme :: m.feed.lexemes = s.lexemes ++ rest ∧
      (s.eval? m.symbols.store).isSome := by
  simp only [statement] at h
  split at h
  · rename_i hk
    obtain ⟨x, rest, hlex, hx⟩ := lexemes_of_declaration h
    refine ⟨.declare x, rest, ?_, by simp [Statement.eval?, hx]⟩
    rw [hlex, ht.eq_of_kind .var hk rfl]
    rfl
  · rename_i hk
    obtain ⟨hx, e, rest, hlex, hv⟩ := lexemes_of_assignment h
    refine ⟨.assign t.literal e, rest, ?_, by simp [Statement.eval?, hx, hv]⟩
    rw [hlex, Statement.lexemes, ← hk]
    rfl
  · rename_i hk
    obtain ⟨e, rest, hlex, hv⟩ := lexemes_of_printing h
    refine ⟨.print e, rest, ?_, by simp [Statement.eval?, hv]⟩
    rw [hlex, ht.eq_of_kind .print hk rfl]
    rfl
  · cases h

/-- A statement with its semicolon is one round of the loop. -/
theorem proceed_of_statement (hs : sink.Reliable) {s : Statement}
    (h : m.feed.lexemes = s.lexemes ++ .semicolon :: rest)
    (he : s.eval? m.symbols.store = some (store, values)) :
    ∃ n : Machine σ, m.proceed sink = n.proceed sink ∧ n.feed.lexemes = rest ∧
      n.feed.error = m.feed.error ∧
      n.symbols.store = store ∧ n.sink = sink.deliver m.sink values ∧
      n.statements = m.statements + 1 := by
  obtain ⟨l, ls, hls⟩ := List.exists_cons_of_ne_nil s.lexemes_ne_nil
  have hl : l.kind ≠ .eof := (Statement.kind_of_mem (by rw [hls]; exact List.mem_cons_self)).1
  rw [hls, List.cons_append] at h
  obtain ⟨t, hr, rfl, hrest, herr⟩ := read_of_lexemes h hl
  obtain ⟨n, hst, hy⟩ := statement_of_lexemes (t := t) (m := m.behind) hs
    (by rw [hrest, hls, List.cons_append]) he
  obtain ⟨u, hr', hu, hrest', herr'⟩ := read_of_lexemes hy.lexemes (by simp)
  have hk : u.kind = .semicolon := by rw [hu]
  refine ⟨{ n.behind with statements := n.behind.statements + 1 }, ?_, hrest', ?_, hy.store,
    hy.sink, congrArg (· + 1) hy.statements⟩
  · rw [proceed_eq, hr, Outcome.ok_andThen, if_neg hl, hst, Outcome.ok_andThen, hr',
      Outcome.ok_andThen, if_pos hk]
  · exact (herr'.trans hy.error).trans herr

/-- A run that comes to its end stands at the end of input, or in front of a statement with a value
and its semicolon. -/
theorem lexemes_of_proceed (hs : sink.Reliable) (h : m.proceed sink = .ok () n) :
    (m.feed.lexemes = [.eof] ∧ m.feed.error = none) ∨
    ∃ (s : Statement) (rest : List Lexeme) (store : Store) (values : List Int),
      m.feed.lexemes = s.lexemes ++ .semicolon :: rest ∧
      s.eval? m.symbols.store = some (store, values) := by
  rw [proceed_eq] at h
  obtain ⟨t, m₁, hr, h⟩ := Outcome.andThen_eq_ok_iff.mp h
  split at h
  · rename_i hk
    rcases m.read_cases with ⟨u, hr', hwf, -⟩ | ⟨u, -, hu, hf, -⟩ | ⟨e, hr', -, -⟩
    · rw [hr] at hr'
      injection hr' with htu
      subst htu
      exact absurd hk hwf.kind_ne_eof
    · exact .inl (by rw [hf]; exact ⟨by simp [Scan.lexemes, hu], rfl⟩)
    · rw [hr] at hr'
      cases hr'
  · rename_i hk
    obtain ⟨rfl, hwf, hlex, -⟩ := lexemes_of_read hr hk
    obtain ⟨⟨⟩, m₂, hst, h⟩ := Outcome.andThen_eq_ok_iff.mp h
    obtain ⟨s, rest, hs', hv⟩ := lexemes_of_statement hwf hst
    obtain ⟨⟨store, values⟩, hv⟩ := Option.isSome_iff_exists.mp hv
    obtain ⟨m₂', hst', hy⟩ := statement_of_lexemes hs hs' hv
    rw [hst] at hst'
    injection hst' with _ hm
    subst hm
    obtain ⟨u, m₃, hr', h⟩ := Outcome.andThen_eq_ok_iff.mp h
    split at h
    · rename_i hu
      obtain ⟨rfl, hwf', hlex', -⟩ := lexemes_of_read hr' (by rw [hu]; simp)
      refine .inr ⟨s, m₂.behind.feed.lexemes, store, values, ?_, hv⟩
      rw [hlex, hs', ← hy.lexemes, hlex', hwf'.eq_of_kind .semicolon hu rfl]
    · cases h

/-- A program in front of the machine is run as it is evaluated. -/
theorem proceed_of_program (hs : sink.Reliable) {p : Program} (h : m.feed.lexemes = p.render)
    (he : p.eval? m.symbols.store = some (final, values)) :
    ∃ n, m.proceed sink = .ok () n ∧ n.symbols.store = final ∧
      n.sink = sink.deliver m.sink values ∧ n.statements = m.statements + p.length := by
  induction p generalizing m values with
  | nil =>
    obtain ⟨t, hr, ht⟩ := read_of_eof h
    obtain ⟨rfl, rfl⟩ : m.symbols.store = final ∧ [] = values := by simpa using he
    refine ⟨m.behind.record (.finished m.statements m.symbols.size), ?_, rfl, rfl, rfl⟩
    rw [proceed_eq, hr, Outcome.ok_andThen, if_pos ht]
    rfl
  | cons s p ih =>
    obtain ⟨mid, first, more, hsv, hpv, rfl⟩ := Program.eval?_cons_eq_some_iff.mp he
    rw [Program.render_cons] at h
    obtain ⟨m', hm, hlex, -, rfl, hsink, hcount⟩ := proceed_of_statement hs h hsv
    obtain ⟨n, hn, hstore, hsink', hcount'⟩ := ih hlex hpv
    refine ⟨n, hm.trans hn, hstore, ?_, ?_⟩
    · rw [hsink', hsink, Sink.deliver_append]
    · rw [hcount', hcount, List.length_cons]
      omega

/-- A run that comes to its end has read a program with a value. The induction is on the number of
tokens left. -/
theorem program_of_proceed (hs : sink.Reliable) (h : m.proceed sink = .ok () n) :
    m.feed.error = none ∧ ∃ (p : Program) (final : Store) (values : List Int),
      m.feed.lexemes = p.render ∧ p.eval? m.symbols.store = some (final, values) := by
  induction hlen : m.feed.lexemes.length using Nat.strongRecOn generalizing m with
  | ind k ih =>
    rcases lexemes_of_proceed hs h with ⟨hlex, herr⟩ | ⟨s, rest, store, values, hlex, hv⟩
    · exact ⟨herr, [], m.symbols.store, [], hlex, rfl⟩
    · obtain ⟨m', hm, hrest, herr, rfl, -, -⟩ := proceed_of_statement hs hlex hv
      have hlt : m'.feed.lexemes.length < k := by
        rw [← hlen, hlex, hrest, List.length_append, List.length_cons]
        omega
      obtain ⟨herr', p, final, more, hp, he⟩ := ih _ hlt (hm ▸ h) rfl
      refine ⟨herr ▸ herr', s :: p, final, values ++ more, ?_, ?_⟩
      · rw [Program.render_cons, hlex, ← hrest, hp]
      · exact Program.eval?_cons_eq_some_iff.mpr ⟨_, values, more, hv, he, rfl⟩

end Machine

variable {sink : Sink σ} {src : Bytes} {symbols : SymbolTable}

/-- A source that spells a program with a value runs to its end, with the effects of the value. -/
theorem execute_of_program (hs : sink.Reliable) (state : σ) {p : Program} {final : Store}
    {values : List Int} (h : (tokenize src).lexemes = p.render)
    (he : p.eval? symbols.store = some (final, values)) :
    (execute sink src symbols state).error = none ∧
      (execute sink src symbols state).machine.symbols.store = final ∧
      (execute sink src symbols state).machine.sink = sink.deliver state values ∧
      (execute sink src symbols state).machine.statements = p.length := by
  obtain ⟨n, hn, hstore, hsink, hcount⟩ :=
    Machine.proceed_of_program (m := .start src symbols state) hs h he
  rw [execute_eq, hn]
  exact ⟨rfl, hstore, hsink, by rw [hcount]; exact Nat.zero_add _⟩

/-- A source that runs to its end spells a program with a value. -/
theorem program_of_execute (hs : sink.Reliable) {state : σ}
    (h : (execute sink src symbols state).error = none) :
    (tokenize src).error = none ∧ ∃ (p : Program) (final : Store) (values : List Int),
      (tokenize src).lexemes = p.render ∧ p.eval? symbols.store = some (final, values) := by
  rw [execute_eq] at h
  split at h
  · rename_i n hn
    exact Machine.program_of_proceed hs hn
  · cases h

/-- A run succeeds exactly if the source scans to the spelling of a program that has a value. Then
its values, its final table and its count are those of that program. -/
theorem execute_iff_evaluates (hs : sink.Reliable) (src : Bytes) (symbols : SymbolTable)
    (state : σ) :
    ((execute sink src symbols state).error = none ↔
      (tokenize src).error = none ∧ ∃ p : Program, (tokenize src).lexemes = p.render ∧
        (p.eval? symbols.store).isSome) ∧
    ∀ (p : Program) (final : Store) (values : List Int),
      (tokenize src).lexemes = p.render → p.eval? symbols.store = some (final, values) →
      (execute sink src symbols state).machine.sink = sink.deliver state values ∧
        (execute sink src symbols state).machine.symbols.store = final ∧
        (execute sink src symbols state).machine.statements = p.length := by
  refine ⟨⟨fun h => ?_, ?_⟩, fun p final values hp he => ?_⟩
  · obtain ⟨herr, p, final, values, hp, he⟩ := program_of_execute hs h
    exact ⟨herr, p, hp, by simp [he]⟩
  · rintro ⟨-, p, hp, he⟩
    obtain ⟨⟨final, values⟩, he⟩ := Option.isSome_iff_exists.mp he
    exact (execute_of_program hs state hp he).1
  · obtain ⟨-, hstore, hsink, hcount⟩ := execute_of_program hs state hp he
    exact ⟨hsink, hstore, hcount⟩

/-- Keywords run into what follows them: `vara;` declares, and leading zeros do not count. -/
theorem execute_iff_evaluates_collector :
    Sink.collector.Reliable ∧
    (execute Sink.collector (utf8 "vara;a=007; print a ;print 9223372036854775807;") .empty
      []).error = none ∧
    (execute Sink.collector (utf8 "vara;a=007; print a ;print 9223372036854775807;") .empty
      []).machine.sink = [9223372036854775807, 7] := by
  have hs : Sink.collector.Reliable := fun _ _ => rfl
  have h := execute_iff_evaluates hs
    (utf8 "vara;a=007; print a ;print 9223372036854775807;") .empty []
  let p : Program := [.declare (utf8 "a"), .assign (utf8 "a") (.number (utf8 "007")),
    .print (.name (utf8 "a")), .print (.number (utf8 "9223372036854775807"))]
  have hp : (tokenize (utf8 "vara;a=007; print a ;print 9223372036854775807;")).lexemes =
      p.render := by decide +kernel
  have he : p.eval? SymbolTable.empty.store =
      some ((∅ : Store).insert (utf8 "a") 7, [7, 9223372036854775807]) := by decide +kernel
  refine ⟨hs, h.1.mpr ⟨by decide +kernel, p, hp, by rw [he]; rfl⟩, ?_⟩
  exact (h.2 p _ _ hp he).1

end StatementLang
