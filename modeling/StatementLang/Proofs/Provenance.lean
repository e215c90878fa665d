import Mathlib.Logic.Relation
import StatementLang.Proofs.Delivery
import StatementLang.Proofs.Repetition
import StatementLang.Proofs.Spelling

/-!
# What tables can hold

All that a run does to its table and its sink it does by statements of its source, one after the
other, however it ends. So what every statement keeps is true of every table that is reached by
running sources against it: names are words of the language, values are zero or integers that were
written in one of the sources, and a variable changes only where the source assigns to it.
-/

namespace StatementLang

variable {σ : Type}

/-- One statement that stands among the lexemes has its effect on the store and on the sink. -/
def Sink.Acts (sink : Sink σ) (ls : List Lexeme) (a b : Store × σ) : Prop :=
  ∃ (s : Statement) (values : List Int), s.lexemes <:+: ls ∧
    s.eval? a.1 = some (b.1, values) ∧ b.2 = sink.deliver a.2 values

/-- Statements among the lexemes lead from one store and sink to the other. -/
def Sink.Leads (sink : Sink σ) (ls : List Lexeme) : Store × σ → Store × σ → Prop :=
  Relation.ReflTransGen (sink.Acts ls)

namespace Sink.Leads

variable {sink : Sink σ} {ls ms : List Lexeme} {a b c : Store × σ}

theorem refl (a : Store × σ) : sink.Leads ls a a := Relation.ReflTransGen.refl

theorem trans (h : sink.Leads ls a b) (h' : sink.Leads ls b c) : sink.Leads ls a c :=
  Relation.ReflTransGen.trans h h'

theorem mono (h : sink.Leads ls a b) (hls : ls <:+: ms) : sink.Leads ms a b := by
  have hacts : ∀ a b, sink.Acts ls a b → sink.Acts ms a b := by
    rintro a b ⟨s, values, hs, heval, hsink⟩
    exact ⟨s, values, hs.trans hls, heval, hsink⟩
  exact Relation.ReflTransGen.mono hacts a b h

end Sink.Leads

theorem Outcome.machine_andThen {α β : Type} (x : Outcome σ α) (f : α → Machine σ → Outcome σ β) :
    (x.andThen f).machine = match x with
      | .ok a m => (f a m).machine
      | .fail _ m => m := by
  cases x <;> rfl

namespace Machine

variable {sink : Sink σ} {m n : Machine σ} {t : Token}

/-- What statements have their effects on. -/
def holdings (m : Machine σ) : Store × σ := (m.symbols.store, m.sink)

@[simp] theorem machine_read (m : Machine σ) : m.read.machine = m.behind := by
  cases hc : m.cursor.next.1 with
  | ok t => rw [read_of_ok hc, Outcome.machine_ok]
  | error e => rw [read_of_error hc, Outcome.machine_fail]

@[simp] theorem machine_expression (m : Machine σ) : m.expression.machine = m.behind := by
  rw [← machine_read, expression]
  cases m.read with
  | fail e n => rfl
  | ok t n =>
    simp only [Outcome.ok_andThen]
    cases evaluate n.symbols t <;> rfl

/-- The statement in front of a machine whose first token `t` has been read has had its effect, or
no statement has had any. -/
inductive Does (sink : Sink σ) (t : Token) (m n : Machine σ) : Prop
  | nothing (h : n.holdings = m.holdings)
  | statement (s : Statement) (rest : List Lexeme) (values : List Int)
      (lexemes : t.toLexeme :: m.feed.lexemes = s.lexemes ++ rest)
      (store : s.eval? m.symbols.store = some (n.symbols.store, values))
      (delivered : n.sink = sink.deliver m.sink values)

theorem declaration_does (sink : Sink σ) (m : Machine σ) (ht : t.toLexeme = ⟨.var, varWord⟩) :
    m.Does sink t m.declaration.machine := by
  cases hd : m.declaration with
  | ok u n =>
    obtain ⟨x, rest, hlex, hx⟩ := lexemes_of_declaration hd
    obtain ⟨n', hn', hy⟩ : ∃ n', m.declaration = .ok () n' ∧
        m.Yields sink n' rest (m.symbols.store.insert x 0) [] := declaration_of_lexemes hlex hx
    obtain rfl : n = n' := by
      rw [hd] at hn'
      injection hn'
    refine .statement (.declare x) rest [] ?_ ?_ hy.sink
    · rw [hlex, ht]
      rfl
    · rw [Statement.eval?, if_neg hx, Outcome.machine_ok, hy.store]
  | fail e n =>
    cases e with
    | program e =>
      obtain ⟨-, rfl⟩ := declaration_fails hd
      exact .nothing rfl
    | output reason => exact absurd hd (m.delivers_declaration reason n)

theorem holdings_of_assignment_fail {e : RunError} (h : m.assignment t = .fail e n) :
    n.holdings = m.holdings := by
  simp only [assignment] at h
  split at h
  · injection h with _ hn
    rw [← hn]
  · rcases Outcome.andThen_eq_fail_iff.mp h with hr | ⟨a, m', hr, h⟩
    · have hn := m.machine_read
      rw [hr, Outcome.machine_fail] at hn
      rw [hn]
      rfl
    · obtain ⟨-, rfl⟩ := read_eq_ok_iff.mp hr
      split at h
      · rcases Outcome.andThen_eq_fail_iff.mp h with he | ⟨v, m', -, h⟩
        · have hn := m.behind.machine_expression
          rw [he, Outcome.machine_fail] at hn
          rw [hn]
          rfl
        · cases h
      · injection h with _ hn
        rw [← hn]
        rfl

theorem assignment_does (sink : Sink σ) (m : Machine σ) (hk : t.kind = .ident) :
    m.Does sink t (m.assignment t).machine := by
  cases ha : m.assignment t with
  | ok u n =>
    obtain ⟨hx, e, rest, hlex, hv⟩ := lexemes_of_assignment ha
    obtain ⟨v, hv⟩ := Option.isSome_iff_exists.mp hv
    obtain ⟨n', hn', hy⟩ : ∃ n', m.assignment t = .ok () n' ∧
        m.Yields sink n' rest (m.symbols.store.insert t.literal v) [] :=
      assignment_of_lexemes hx hlex hv
    obtain rfl : n = n' := by
      rw [ha] at hn'
      injection hn'
    refine .statement (.assign t.literal e) rest [] ?_ ?_ hy.sink
    · rw [hlex, Statement.lexemes, ← hk]
      rfl
    · rw [Statement.eval?, if_pos hx, hv, Outcome.machine_ok, hy.store]
      rfl
  | fail e n => exact .nothing (holdings_of_assignment_fail ha)

/-- A value that is refused has been handed over too. -/
theorem printing_does (sink : Sink σ) (pos : Position) (m : Machine σ)
    (ht : t.toLexeme = ⟨.print, printWord⟩) : m.Does sink t (m.printing sink pos).machine := by
  rw [printing, Outcome.machine_andThen]
  have hmachine := m.machine_expression
  cases he : m.expression with
  | fail e n =>
    rw [he, Outcome.machine_fail] at hmachine
    exact .nothing (by rw [hmachine]; rfl)
  | ok v n =>
    obtain ⟨rfl, e, hlex, hv⟩ := lexemes_of_expression he
    have hprint : (Statement.print e).eval? m.symbols.store = some (m.symbols.store, [v]) := by
      rw [Statement.eval?, hv]
      rfl
    have hspell : t.toLexeme :: m.feed.lexemes =
        (Statement.print e).lexemes ++ m.behind.feed.lexemes := by
      rw [hlex, ht]
      rfl
    cases hemit : sink.emit m.sink v with
    | mk s reason =>
      have hsink : s = sink.deliver m.sink [v] := by
        rw [Sink.deliver, List.foldl_cons, List.foldl_nil, hemit]
      simp only [behind_sink, hemit]
      cases reason with
      | none => exact .statement _ _ _ hspell hprint hsink
      | some reason => exact .statement _ _ _ hspell hprint hsink

theorem statement_does (sink : Sink σ) (m : Machine σ) (ht : t.toLexeme.WellFormed) :
    m.Does sink t (m.statement sink t).machine := by
  rw [statement]
  split
  · rename_i hk
    exact declaration_does sink m (ht.eq_of_kind .var hk rfl)
  · rename_i hk
    exact assignment_does sink m hk
  · rename_i hk
    exact printing_does sink t.pos m (ht.eq_of_kind .print hk rfl)
  · exact .nothing rfl

/-- The first token of a round and its statement. -/
theorem opening_leads (sink : Sink σ) (m : Machine σ) :
    sink.Leads m.feed.lexemes m.holdings (m.read.andThen (statement sink)).machine.holdings := by
  cases hc : m.cursor.next.1 with
  | error e =>
    rw [read_of_error hc]
    exact .refl _
  | ok t =>
    rw [read_of_ok hc, Outcome.ok_andThen]
    by_cases hk : t.kind = .eof
    · rw [statement, hk]
      exact .refl _
    · obtain ⟨-, hwf, hlex, -⟩ := lexemes_of_read (read_of_ok hc) hk
      cases statement_does sink m.behind hwf with
      | nothing h =>
        rw [h]
        exact .refl _
      | statement s rest values hspell hstore hsink =>
        refine Relation.ReflTransGen.single ⟨s, values, ?_, hstore, hsink⟩
        rw [hlex, hspell]
        exact (List.prefix_append s.lexemes rest).isInfix

/-- The semicolon of a round has no effect. -/
theorem round_leads (sink : Sink σ) (m : Machine σ) :
    sink.Leads m.feed.lexemes m.holdings (m.round sink).machine.holdings := by
  have hopen := opening_leads sink m
  rw [round, Outcome.machine_andThen]
  cases hx : m.read.andThen (statement sink) with
  | fail e n =>
    rw [hx] at hopen
    exact hopen
  | ok u n =>
    rw [hx] at hopen
    have hread := n.machine_read
    simp only [Outcome.machine_andThen]
    cases hr : n.read with
    | fail e k =>
      rw [hr, Outcome.machine_fail] at hread
      rw [hread]
      exact hopen
    | ok s k =>
      rw [hr, Outcome.machine_ok] at hread
      subst hread
      simp only
      split
      · exact hopen
      · exact hopen

theorem feed_suffix_of_round (h : m.round sink = .ok () n) : n.feed.lexemes <:+ m.feed.lexemes := by
  obtain ⟨ts, s, -, hreads, -⟩ := round_reads h
  exact ⟨_, hreads.lexemes_eq.symm⟩

/-- A run leads where statements of its text lead, whether it succeeds or fails. -/
theorem proceed_leads (sink : Sink σ) (m : Machine σ) :
    sink.Leads m.feed.lexemes m.holdings (m.proceed sink).machine.holdings := by
  induction m using round_induction sink with
  | step m ih =>
    have hround := round_leads sink m
    rcases m.proceed_cases sink with ⟨t, -, -, hp⟩ | ⟨k, hk, hp⟩ | ⟨e, k, -, hk, hp⟩
    · rw [hp]
      exact .refl _
    · rw [hk] at hround
      rw [hp]
      exact hround.trans ((ih k hk).mono (feed_suffix_of_round hk).isInfix)
    · rw [hk] at hround
      rw [hp]
      exact hround

/-- Every one of some runs in a row leads where statements of the source lead. -/
theorem afterRuns_leads (sink : Sink σ) (src : Bytes) (symbols : SymbolTable) (state : σ)
    (i : Nat) :
    sink.Leads (tokenize src).lexemes ((start src symbols state).afterRuns sink i).holdings
      ((start src symbols state).afterRuns sink (i + 1)).holdings := by
  have hfeed := (start src symbols state).feed_afterRuns sink i
  rw [afterRuns_succ, machine_run]
  generalize (start src symbols state).afterRuns sink i = m at hfeed ⊢
  have hsuffix : m.feed.lexemes <:+ (tokenize src).lexemes := by
    refine ⟨((start src symbols state).readings sink i).flatten.map Token.toLexeme, ?_⟩
    rw [Scan.lexemes, ← List.map_append, ← hfeed]
    rfl
  exact (m.afresh.proceed_leads sink).mono hsuffix.isInfix

end Machine

/-- A value that a variable can hold and that is zero or was written as an integer in one of the
sources. -/
structure Sourced (sources : List Bytes) (v : Int) : Prop where
  nonneg : 0 ≤ v
  le : v ≤ 2 ^ 63 - 1
  origin : v = 0 ∨ ∃ src ∈ sources, ∃ t ∈ (tokenize src).tokens,
    t.kind = .int ∧ v = decimalValue t.literal

theorem Sourced.mono {sources more : List Bytes} {v : Int} (h : Sourced sources v)
    (hsub : sources ⊆ more) : Sourced more v := by
  refine ⟨h.nonneg, h.le, h.origin.imp_right ?_⟩
  rintro ⟨src, hsrc, hv⟩
  exact ⟨src, hsub hsrc, hv⟩

/-- Names are words of the language and values come from the sources. -/
def Store.Sound (sources : List Bytes) (store : Store) : Prop :=
  ∀ x v, store.lookup x = some v → Lexeme.WellFormed ⟨.ident, x⟩ ∧ Sourced sources v

theorem Store.Sound.mono {sources more : List Bytes} {store : Store}
    (h : Store.Sound sources store) (hsub : sources ⊆ more) : Store.Sound more store :=
  fun x v hv => ⟨(h x v hv).1, (h x v hv).2.mono hsub⟩

theorem Store.Sound.insert {sources : List Bytes} {store : Store} (h : Store.Sound sources store)
    {x : Bytes} {v : Int} (hx : Lexeme.WellFormed ⟨.ident, x⟩) (hv : Sourced sources v) :
    Store.Sound sources (store.insert x v) := by
  intro y w hy
  by_cases hyx : y = x
  · subst hyx
    rw [Finmap.lookup_insert] at hy
    obtain rfl := Option.some.inj hy
    exact ⟨hx, hv⟩
  · rw [Finmap.lookup_insert_of_ne _ hyx] at hy
    exact h y w hy

theorem wellFormed_of_mem_lexemes {src : Bytes} {l : Lexeme} (h : l ∈ (tokenize src).lexemes)
    (hk : l.kind ≠ .eof) : l.WellFormed := by
  obtain ⟨ls, hwf, hls⟩ := exists_wellFormed_lexemes src
  rw [hls, List.mem_append] at h
  rcases h with h | h
  · exact hwf l h
  · split at h
    · rw [List.mem_singleton] at h
      exact absurd (congrArg Lexeme.kind h) hk
    · cases h

section

variable {sources : List Bytes} {src : Bytes} {store final : Store} {s : Statement}
  {values : List Int}

theorem Expression.sourced_of_value? {e : Expression} {v : Int} (hsrc : src ∈ sources)
    (hsound : Store.Sound sources store) (he : e.lexeme ∈ (tokenize src).lexemes)
    (h : e.value? store = some v) : Sourced sources v := by
  cases e with
  | name x => exact (hsound x v h).2
  | number digits =>
    simp only [Expression.value?] at h
    split at h
    · rename_i hle
      obtain rfl := Option.some.inj h
      obtain ⟨t, ht, hlex⟩ := List.mem_map.mp he
      refine ⟨by omega, by omega, .inr ⟨src, hsrc, t, ht, ?_, ?_⟩⟩
      · rw [hlex]
        rfl
      · rw [hlex]
        rfl
    · cases h

/-- A statement of a source keeps a table sound and prints values that come from the sources. -/
theorem Statement.sound_of_eval? (hsrc : src ∈ sources) (hsound : Store.Sound sources store)
    (hs : s.lexemes <:+: (tokenize src).lexemes) (h : s.eval? store = some (final, values)) :
    Store.Sound sources final ∧ ∀ v ∈ values, Sourced sources v := by
  have hmem : ∀ l ∈ s.lexemes, l ∈ (tokenize src).lexemes := fun l hl => hs.subset hl
  have hword : ∀ x, ⟨.ident, x⟩ ∈ s.lexemes → Lexeme.WellFormed ⟨.ident, x⟩ := fun x hx =>
    wellFormed_of_mem_lexemes (hmem _ hx) (by simp)
  cases s with
  | declare x =>
    obtain ⟨-, rfl, rfl⟩ := Statement.eval?_declare_eq_some_iff.mp h
    have hx := hword x (by simp)
    exact ⟨hsound.insert hx ⟨by omega, by omega, .inl rfl⟩, by simp⟩
  | assign x e =>
    obtain ⟨-, v, hv, rfl, rfl⟩ := Statement.eval?_assign_eq_some_iff.mp h
    have hx := hword x (by simp)
    have he := hmem e.lexeme (by simp)
    exact ⟨hsound.insert hx (Expression.sourced_of_value? hsrc hsound he hv), by simp⟩
  | print e =>
    obtain ⟨v, hv, rfl, rfl⟩ := Statement.eval?_print_eq_some_iff.mp h
    have he := hmem e.lexeme (by simp)
    refine ⟨hsound, ?_⟩
    intro w hw
    rw [List.mem_singleton.mp hw]
    exact Expression.sourced_of_value? hsrc hsound he hv

/-- A statement keeps all names, and all values but the one it assigns. -/
theorem Statement.lookup_of_eval? (h : s.eval? store = some (final, values)) {x : Bytes} {v : Int}
    (hx : store.lookup x = some v) :
    ∃ w, final.lookup x = some w ∧ (w ≠ v → ∃ e, s = .assign x e) := by
  cases s with
  | declare y =>
    rw [Statement.eval?] at h
    split at h
    · cases h
    · rename_i hy
      obtain ⟨rfl, -⟩ := Prod.mk.inj (Option.some.inj h)
      have hxy : x ≠ y := by
        rintro rfl
        exact hy (Finmap.mem_of_lookup_eq_some hx)
      rw [Finmap.lookup_insert_of_ne _ hxy]
      exact ⟨v, hx, absurd rfl⟩
  | assign y e =>
    rw [Statement.eval?] at h
    split at h
    · obtain ⟨w, -, heq⟩ := Option.map_eq_some_iff.mp h
      obtain ⟨rfl, -⟩ := Prod.mk.inj heq
      by_cases hxy : x = y
      · subst hxy
        exact ⟨w, Finmap.lookup_insert _, fun _ => ⟨e, rfl⟩⟩
      · rw [Finmap.lookup_insert_of_ne _ hxy]
        exact ⟨v, hx, absurd rfl⟩
    · cases h
  | print e =>
    obtain ⟨w, -, heq⟩ := Option.map_eq_some_iff.mp h
    obtain ⟨rfl, -⟩ := Prod.mk.inj heq
    exact ⟨v, hx, absurd rfl⟩

/-- What statements among the lexemes lead to holds every name that was there, with its value
unless one of them assigns to it. -/
theorem Sink.Leads.lookup {sink : Sink σ} {ls : List Lexeme} {a b : Store × σ}
    (h : sink.Leads ls a b) {x : Bytes} {v : Int} (hx : a.1.lookup x = some v) :
    ∃ w, b.1.lookup x = some w ∧ (w ≠ v → ∃ e, (Statement.assign x e).lexemes <:+: ls) := by
  induction h with
  | refl => exact ⟨v, hx, absurd rfl⟩
  | @tail b c _ hact ih =>
    obtain ⟨s, values, hs, heval, -⟩ := hact
    obtain ⟨w, hw, hassigned⟩ := ih
    obtain ⟨u, hu, hassign⟩ := Statement.lookup_of_eval? heval hw
    refine ⟨u, hu, fun hne => ?_⟩
    by_cases huw : u = w
    · exact hassigned (huw ▸ hne)
    · obtain ⟨e, rfl⟩ := hassign huw
      exact ⟨e, hs⟩

end

namespace Sink

/-- The sink with a note, newest first, of every value that it was handed, taken or not. -/
def noting (sink : Sink σ) : Sink (σ × List Int) :=
  ⟨fun s v => (((sink.emit s.1 v).1, v :: s.2), (sink.emit s.1 v).2)⟩

@[simp] theorem noting_deliver (sink : Sink σ) (s : σ × List Int) (values : List Int) :
    (sink.noting.deliver s values).2 = values.reverse ++ s.2 := by
  induction values generalizing s with
  | nil => rfl
  | cons v values ih =>
    have hrest := ih (sink.noting.emit s v).1
    rw [List.reverse_cons, List.append_assoc]
    exact hrest

/-- Taking notes changes nothing. -/
theorem noting_carries (sink : Sink σ) :
    (Likeness.ofStates fun (s : σ) (p : σ × List Int) => p.1 = s).Carries sink sink.noting := by
  intro s p v hp
  obtain rfl : p.1 = s := hp
  exact ⟨rfl, rfl⟩

/-- The table is sound and all values that were handed over come from the sources. -/
def Clean (sources : List Bytes) (a : Store × (σ × List Int)) : Prop :=
  Store.Sound sources a.1 ∧ ∀ v ∈ a.2.2, Sourced sources v

/-- Statements of a source keep all clean. -/
theorem Leads.clean {sink : Sink σ} {sources : List Bytes} {src : Bytes}
    {a b : Store × (σ × List Int)} (h : sink.noting.Leads (tokenize src).lexemes a b)
    (hsrc : src ∈ sources) (ha : Clean sources a) : Clean sources b := by
  induction h with
  | refl => exact ha
  | tail _ hact ih =>
    obtain ⟨hsound, hnoted⟩ := ih
    obtain ⟨s, values, hs, heval, hsink⟩ := hact
    obtain ⟨hfinal, hvalues⟩ := Statement.sound_of_eval? hsrc hsound hs heval
    refine ⟨hfinal, fun v hv => ?_⟩
    rw [hsink, noting_deliver, List.mem_append, List.mem_reverse] at hv
    exact hv.elim (hvalues v) (hnoted v)

end Sink

/-- A source that is run some times in a row with a sink of its own. -/
structure Turn where
  State : Type
  sink : Sink State
  state : State
  src : Bytes
  runs : Nat

namespace Turn

def machine (turn : Turn) (symbols : SymbolTable) (i : Nat) : Machine turn.State :=
  (Machine.start turn.src symbols turn.state).afterRuns turn.sink i

def table (turn : Turn) (symbols : SymbolTable) : SymbolTable :=
  (turn.machine symbols turn.runs).symbols

/-- The turn with notes of what its sink is handed. -/
def noting (turn : Turn) : Turn :=
  ⟨turn.State × List Int, turn.sink.noting, (turn.state, []), turn.src, turn.runs⟩

/-- The values that the sink is handed in a turn, newest first. -/
def handed (turn : Turn) (symbols : SymbolTable) : List Int :=
  let noted : turn.State × List Int := (turn.noting.machine symbols turn.runs).sink
  noted.2

/-- The table that turns leave, one after the other, that start with the empty table. -/
def tableAfter (turns : List Turn) : SymbolTable :=
  turns.foldl (fun symbols turn => turn.table symbols) .empty

/-- Taking notes changes neither the table nor what the sink is left with. -/
theorem machine_noting_alike (turn : Turn) (symbols : SymbolTable) (i : Nat) :
    (turn.machine symbols i).Alike
      (.ofStates fun (s : turn.State) (p : turn.State × List Int) => p.1 = s)
      (turn.noting.machine symbols i) := by
  induction i with
  | zero => exact (Machine.start turn.src symbols turn.state).alike_withSink rfl
  | succ i ih =>
    rw [machine, machine, Machine.afterRuns_succ, Machine.afterRuns_succ]
    exact (Machine.run_alike turn.sink.noting_carries ih).machine

theorem clean_machine (turn : Turn) {sources : List Bytes} {symbols : SymbolTable}
    (hsrc : turn.src ∈ sources) (h : Store.Sound sources symbols.store) (i : Nat) :
    Sink.Clean sources (turn.noting.machine symbols i).holdings := by
  induction i with
  | zero => exact ⟨h, by simp [machine, noting, Machine.holdings, Machine.start, Machine.afterRuns]⟩
  | succ i ih =>
    exact (Machine.afterRuns_leads turn.sink.noting turn.src symbols (turn.state, []) i).clean
      hsrc ih

theorem sound_table (turn : Turn) {sources : List Bytes} {symbols : SymbolTable}
    (hsrc : turn.src ∈ sources) (h : Store.Sound sources symbols.store) :
    Store.Sound sources (turn.table symbols).store := by
  rw [table, (turn.machine_noting_alike symbols turn.runs).symbols]
  exact (turn.clean_machine hsrc h turn.runs).1

@[simp] theorem tableAfter_concat (turns : List Turn) (turn : Turn) :
    tableAfter (turns ++ [turn]) = turn.table (tableAfter turns) := by
  rw [tableAfter, List.foldl_append]
  rfl

/-- Every table that turns leave is sound. -/
theorem sound_tableAfter (turns : List Turn) :
    Store.Sound (turns.map Turn.src) (tableAfter turns).store := by
  induction turns using List.reverseRecOn with
  | nil =>
    intro x v h
    rw [tableAfter, List.foldl_nil, SymbolTable.store_empty, Finmap.lookup_empty] at h
    cases h
  | append_singleton turns turn ih =>
    rw [tableAfter_concat]
    refine turn.sound_table (by simp) (ih.mono ?_)
    rw [List.map_append]
    exact List.subset_append_left _ _

end Turn

/-- Whatever sources are run in turns against one table that starts empty, each of them any number
of times and with any sink: a name in the table is a word of lower-case letters that starts with no
keyword and is found under itself, and its value, like every value that a sink is handed, is zero or
was written as an integer in one of the sources and fits a variable. A sink that takes notes of
what it is handed runs as the sink does. No run removes a name, and none changes a value unless its
source assigns to that name. -/
theorem tables_hold_sourced_values (turns : List Turn) (turn : Turn) :
    let symbols := Turn.tableAfter turns
    (∀ c ∈ symbols.cells, (c.name ≠ [] ∧ ∀ b ∈ c.name, 97 ≤ b ∧ b ≤ 122) ∧
      ¬ varWord <+: c.name ∧ ¬ printWord <+: c.name ∧ Sourced (turns.map Turn.src) c.value) ∧
    (∀ x v, symbols.get? x = some v ↔ ⟨x, v⟩ ∈ symbols.cells) ∧
    (∀ v ∈ turn.handed symbols, Sourced ((turns ++ [turn]).map Turn.src) v) ∧
    (∀ i, (turn.machine symbols i).Alike
      (.ofStates fun (s : turn.State) (p : turn.State × List Int) => p.1 = s)
      (turn.noting.machine symbols i)) ∧
    ∀ i x v, (turn.machine symbols i).symbols.get? x = some v →
      ∃ w, (turn.machine symbols (i + 1)).symbols.get? x = some w ∧
        (w ≠ v → ∃ e, (Statement.assign x e).lexemes <:+: (tokenize turn.src).lexemes) := by
  intro symbols
  have hsound := Turn.sound_tableAfter turns
  refine ⟨?_, fun x v => SymbolTable.get?_eq_some_iff, ?_, turn.machine_noting_alike symbols, ?_⟩
  · intro c hc
    have hget := SymbolTable.get?_eq_some_iff.mpr hc
    rw [← SymbolTable.lookup_store] at hget
    obtain ⟨hname, hvalue⟩ := hsound c.name c.value hget
    cases hname with
    | ident nonempty lower notVar notPrint =>
      refine ⟨⟨nonempty, fun b hb => ?_⟩, notVar, notPrint, hvalue⟩
      simpa [isLower] using lower b hb
  · have hmore : Store.Sound ((turns ++ [turn]).map Turn.src) symbols.store :=
      hsound.mono (by rw [List.map_append]; exact List.subset_append_left _ _)
    exact (turn.clean_machine (by simp) hmore turn.runs).2
  · intro i x v hx
    rw [← SymbolTable.lookup_store] at hx
    simp only [← SymbolTable.lookup_store]
    exact (Machine.afterRuns_leads turn.sink turn.src symbols turn.state i).lookup hx

/-- The first value is refused, and the third run of that source stops at a number that is too
great. The second source copies the value before it fails. -/
theorem tables_hold_sourced_values_refused :
    let first : Turn := ⟨Sink.Counted, Sink.failingAt 1, ⟨0, []⟩,
      utf8 "var a; a = 7; print a; var b; b = 9223372036854775808;", 3⟩
    let second : Turn := ⟨List Int, Sink.collector, [], utf8 "b = a; print b; a = c;", 1⟩
    let symbols := Turn.tableAfter [first]
    (symbols.cells = [⟨utf8 "a", 7⟩, ⟨utf8 "b", 0⟩] ∧ Sourced [first.src] 7) ∧
    (first.handed .empty = [7] ∧ second.handed symbols = [7] ∧ Sourced [first.src, second.src] 7) ∧
    ((second.machine symbols 0).symbols.get? (utf8 "b") = some 0 ∧
      (second.machine symbols 1).symbols.get? (utf8 "b") = some 7 ∧
      ∃ e, (Statement.assign (utf8 "b") e).lexemes <:+: (tokenize second.src).lexemes) := by
  intro first second symbols
  have hcells : symbols.cells = [⟨utf8 "a", 7⟩, ⟨utf8 "b", 0⟩] := by decide +kernel
  have hfirst : first.handed .empty = [7] := by decide +kernel
  have hsecond : second.handed symbols = [7] := by decide +kernel
  have hbefore : (second.machine symbols 0).symbols.get? (utf8 "b") = some 0 := by decide +kernel
  have hafter : (second.machine symbols 1).symbols.get? (utf8 "b") = some 7 := by decide +kernel
  obtain ⟨hcell, -, hhanded, -, hrun⟩ := tables_hold_sourced_values [first] second
  obtain ⟨w, hw, hassigned⟩ := hrun 0 (utf8 "b") 0 hbefore
  obtain rfl : 7 = w := Option.some.inj (hafter.symm.trans hw)
  exact ⟨⟨hcells, (hcell ⟨utf8 "a", 7⟩ (by rw [hcells]; simp)).2.2.2⟩,
    ⟨hfirst, hsecond, hhanded 7 (by rw [hsecond]; simp)⟩,
    ⟨hbefore, hafter, hassigned (by decide)⟩⟩

end StatementLang
