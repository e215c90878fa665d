import Mathlib.Logic.Function.Iterate
import StatementLang.Proofs.LexicalErrors

/-!
# Running again

A run leaves its machine behind the last token it has pulled, and the next run goes on from there.
So runs in a row take the tokens of a source off its front, each token once. Only the end of input
and a byte that starts no token stay where they are: a run that finds nothing else in front of it
changes nothing, and neither does any run after it.
-/

namespace StatementLang

variable {σ : Type}

namespace Cursor

variable {c : Cursor} {rs : List (Except LexError Token)}

/-- The tokens that pulls with these results pass; the end of input is not passed. -/
def passed (rs : List (Except LexError Token)) : List Token :=
  (rs.filterMap Except.toOption).filter fun t => t.kind ≠ .eof

/-- Pulls take the tokens they pass off the front of the scan. -/
theorem Gives.scan_eq (h : c.Gives rs) :
    c.scan = ⟨passed rs ++ (c.behindPulls rs.length).scan.tokens,
      (c.behindPulls rs.length).scan.error⟩ := by
  induction rs generalizing c with
  | nil => rfl
  | cons r rs ih =>
    obtain ⟨hr, hrest⟩ := gives_cons_iff.mp h
    have hscan := ih hrest
    rw [List.length_cons, behindPulls]
    cases r with
    | error e =>
      rw [scan_next_of_error hr] at hscan
      exact hscan
    | ok t =>
      by_cases hk : t.kind = .eof
      · have hpassed : passed (.ok t :: rs) = passed rs := by
          simp [passed, Except.toOption, hk]
        rw [scan_next_of_eof hr hk] at hscan
        rw [hpassed]
        exact hscan
      · have hpassed : passed (.ok t :: rs) = t :: passed rs := by
          simp [passed, Except.toOption, hk]
        rw [scan_of_token hr hk, hscan, hpassed, List.cons_append]

end Cursor

/-- The error of a run that finds nothing else in front of it. -/
def Scan.verdict (s : Scan) : Option RunError := s.error.map fun e => .program (.ofLexError e)

/-- The run has come to the end of its text, or to a byte that starts no token. -/
def Execution.Settled (e : Execution σ) : Prop :=
  ∀ err, e.error = some err → err.kind? = some .lexical

theorem getElem?_map_range_iff {α : Type} {f : Nat → α} {k i : Nat} {a : α} :
    ((List.range k).map f)[i]? = some a ↔ i < k ∧ a = f i := by
  rw [List.getElem?_map]
  by_cases h : i < k
  · simp [h, eq_comm]
  · simp [h]

namespace Machine

open Cursor

variable {sink : Sink σ} {m n : Machine σ}

/-- A run starts with a pull. -/
theorem exists_pulls_cons (sink : Sink σ) (m : Machine σ) :
    ∃ more, m.pulls sink = m.cursor.next.1 :: more := by
  rw [pulls]
  exact ⟨_, rfl⟩

/-- A run leaves the cursor behind its pulls, however it ends. -/
theorem cursor_proceed (sink : Sink σ) (m : Machine σ) :
    (m.proceed sink).machine.cursor = m.cursor.behindPulls (m.pulls sink).length := by
  induction m using round_induction sink with
  | step m ih =>
    have hround := (Pulls.round sink).cursor_eq m
    rcases m.proceed_cases sink with ⟨t, ht, hk, hp⟩ | ⟨k, hk, hp⟩ | ⟨e, k, -, hk, hp⟩
    · have heof := round_of_eof sink ht hk
      rw [heof] at hround
      rw [hp, pulls_of_fail heof, ← hround]
      rfl
    · rw [hk] at hround
      rw [hp, ih k hk, pulls_of_ok hk, List.length_append, behindPulls_add, ← hround]
      rfl
    · rw [hk] at hround
      rw [hp, pulls_of_fail hk, ← hround]

/-- The machine as a run finds it, with no events. -/
def afresh (m : Machine σ) : Machine σ := { m with events := [] }

theorem run_eq (sink : Sink σ) (m : Machine σ) :
    m.run sink = (m.afresh.proceed sink).execution := rfl

@[simp] theorem machine_run (sink : Sink σ) (m : Machine σ) :
    (m.run sink).machine = (m.afresh.proceed sink).machine := by
  rw [run_eq]
  cases m.afresh.proceed sink <;> rfl

/-- The tokens that a run takes from its text, in order. -/
def consumed (sink : Sink σ) (m : Machine σ) : List Token := passed (m.afresh.pulls sink)

/-- What a run takes stands in front of what it leaves. -/
theorem feed_eq (sink : Sink σ) (m : Machine σ) :
    m.feed = ⟨m.consumed sink ++ (m.run sink).machine.feed.tokens,
      (m.run sink).machine.feed.error⟩ := by
  have hscan : m.feed = _ := (m.afresh.gives_pulls sink).scan_eq
  rw [← cursor_proceed, ← machine_run] at hscan
  exact hscan

/-- Nothing is left but the end of input or a byte that starts no token. -/
def Exhausted (m : Machine σ) : Prop := ∀ t ∈ m.feed.tokens, t.kind = .eof

/-- The machines differ in their events at most. -/
structure SameState (m n : Machine σ) : Prop where
  feed : n.feed = m.feed
  symbols : n.symbols = m.symbols
  sink : n.sink = m.sink
  statements : n.statements = m.statements

theorem SameState.refl (m : Machine σ) : m.SameState m := ⟨rfl, rfl, rfl, rfl⟩

theorem SameState.trans {k : Machine σ} (h : m.SameState n) (h' : n.SameState k) :
    m.SameState k where
  feed := h'.feed.trans h.feed
  symbols := h'.symbols.trans h.symbols
  sink := h'.sink.trans h.sink
  statements := h'.statements.trans h.statements

theorem Exhausted.of_sameState (h : m.Exhausted) (hn : m.SameState n) : n.Exhausted := by
  rw [Exhausted, hn.feed]
  exact h

/-- A run with nothing left changes nothing. -/
theorem run_of_exhausted (h : m.Exhausted) (sink : Sink σ) :
    (m.run sink).error = m.feed.verdict ∧ m.SameState (m.run sink).machine := by
  rcases m.afresh.read_cases with ⟨t, -, hwf, hf⟩ | ⟨t, hr, ht, hf, hb⟩ | ⟨e, hr, hf, hb⟩
  · have hmem : t ∈ m.afresh.feed.tokens := by
      rw [hf]
      exact List.mem_cons_self
    exact absurd (h t hmem) hwf.kind_ne_eof
  · have hk : t.kind = .eof := by rw [ht]
    have hfeed : m.feed = ⟨[t], none⟩ := hf
    rw [run_eq, proceed, hr, Outcome.ok_andThen, loop_eq, if_pos hk, hfeed]
    exact ⟨rfl, hb, rfl, rfl, rfl⟩
  · have hfeed : m.feed = ⟨[], some e⟩ := hf
    rw [run_eq, proceed, hr, hfeed]
    exact ⟨rfl, hb, rfl, rfl, rfl⟩

/-- A run with something left takes a token. -/
theorem exists_consumed (h : ¬ m.Exhausted) (sink : Sink σ) :
    ∃ t ∈ m.consumed sink, t.kind ≠ .eof := by
  obtain ⟨more, hmore⟩ := m.afresh.exists_pulls_cons sink
  cases hc : m.cursor.next.1 with
  | error e =>
    have hfeed : m.feed = ⟨[], some e⟩ := scan_of_error hc
    exact absurd (by simp [Exhausted, hfeed]) h
  | ok t =>
    by_cases hk : t.kind = .eof
    · have hfeed : m.feed = ⟨[t], none⟩ := scan_of_eof hc hk
      exact absurd (by simp [Exhausted, hfeed, hk]) h
    · refine ⟨t, ?_, hk⟩
      have hfirst : m.afresh.cursor.next.1 = .ok t := hc
      rw [consumed, hmore, hfirst]
      simp [passed, Except.toOption, hk]

theorem feed_of_proceed (h : m.proceed sink = .ok () n) :
    ∃ t, t.kind = .eof ∧ n.feed = ⟨[t], none⟩ := by
  induction m using round_induction sink with
  | step m ih =>
    rcases m.proceed_cases sink with ⟨t, ht, hk, hp⟩ | ⟨k, hk, hp⟩ | ⟨e, k, -, -, hp⟩
    · rw [h] at hp
      injection hp with _ hn
      have hfeed : n.feed = m.cursor.next.2.scan := by rw [hn]; rfl
      exact ⟨t, hk, by rw [hfeed, scan_next_of_eof ht hk, scan_of_eof ht hk]⟩
    · exact ih k hk (hp ▸ h)
    · rw [h] at hp
      cases hp

/-- A lexical failure leaves nothing but the byte it is about. -/
theorem feed_of_lexical {e : RunError} (h : m.proceed sink = .fail e n)
    (hk : e.kind? = some .lexical) :
    ∃ le, e = .program (.ofLexError le) ∧ n.feed = ⟨[], some le⟩ := by
  cases e with
  | output reason => cases hk
  | program pe =>
    have hkind : pe.kind = .lexical := Option.some.inj hk
    obtain ⟨ts, d, -, hb, hfeed⟩ := proceed_blames h
    cases hb with
    | @lexical le hd =>
      refine ⟨le, rfl, ?_⟩
      rw [hfeed, scan_next_of_error hd, scan_of_error hd]
    | @token t cause hd hcause =>
      have hlexical : cause.kind = .lexical := hkind
      have hother := Cause.kind_of_blamed hcause
      simp [hlexical] at hother

/-- A run that settles leaves nothing, and says so. -/
theorem exhausted_of_settled (h : (m.run sink).Settled) :
    (m.run sink).machine.Exhausted ∧ (m.run sink).error = (m.run sink).machine.feed.verdict := by
  rw [run_eq] at h ⊢
  cases hp : m.afresh.proceed sink with
  | ok u n =>
    obtain ⟨t, hk, hfeed⟩ := feed_of_proceed hp
    constructor
    · simp [Outcome.execution, Exhausted, hfeed, hk]
    · simp [Outcome.execution, Scan.verdict, hfeed]
  | fail e n =>
    rw [hp] at h
    obtain ⟨le, rfl, hfeed⟩ := feed_of_lexical hp (h e rfl)
    constructor
    · simp [Outcome.execution, Exhausted, hfeed]
    · simp [Outcome.execution, Scan.verdict, hfeed]

theorem settled_of_exhausted (h : m.Exhausted) (sink : Sink σ) : (m.run sink).Settled := by
  intro err herr
  rw [(run_of_exhausted h sink).1] at herr
  obtain ⟨le, -, rfl⟩ := Option.map_eq_some_iff.mp herr
  rfl

def unread (m : Machine σ) : Nat := (m.feed.tokens.filter fun t => t.kind ≠ .eof).length

@[simp] theorem unread_eq_zero_iff : m.unread = 0 ↔ m.Exhausted := by
  simp [unread, Exhausted, List.filter_eq_nil_iff]

/-- A run passes a token, or none is left. -/
theorem unread_run (sink : Sink σ) (m : Machine σ) :
    (m.run sink).machine.unread ≤ m.unread - 1 := by
  by_cases h : m.Exhausted
  · have hzero := unread_eq_zero_iff.mpr (h.of_sameState (run_of_exhausted h sink).2)
    omega
  · obtain ⟨t, ht, hk⟩ := exists_consumed h sink
    have hpos : 0 < ((m.consumed sink).filter fun t => t.kind ≠ .eof).length :=
      List.length_pos_of_mem (List.mem_filter.mpr ⟨ht, by simpa using hk⟩)
    have hsum : m.unread = ((m.consumed sink).filter fun t => t.kind ≠ .eof).length +
        (m.run sink).machine.unread := by
      rw [unread, feed_eq sink m, List.filter_append, List.length_append]
      rfl
    omega

def afterRuns (sink : Sink σ) (i : Nat) (m : Machine σ) : Machine σ :=
  (fun m => (m.run sink).machine)^[i] m

@[simp] theorem afterRuns_succ (sink : Sink σ) (i : Nat) (m : Machine σ) :
    m.afterRuns sink (i + 1) = ((m.afterRuns sink i).run sink).machine :=
  Function.iterate_succ_apply' _ i m

theorem runs_eq (sink : Sink σ) (k : Nat) (m : Machine σ) :
    m.runs sink k = (List.range k).map fun i => (m.afterRuns sink i).run sink := by
  induction k generalizing m with
  | zero => rfl
  | succ k ih =>
    rw [runs, ih, List.range_succ_eq_map, List.map_cons, List.map_map]
    rfl

theorem getElem?_runs_iff {k i : Nat} {e : Execution σ} :
    (m.runs sink k)[i]? = some e ↔ i < k ∧ e = (m.afterRuns sink i).run sink := by
  rw [runs_eq, getElem?_map_range_iff]

theorem sameState_afterRuns (h : m.Exhausted) (sink : Sink σ) (i : Nat) :
    m.SameState (m.afterRuns sink i) := by
  induction i with
  | zero => exact .refl m
  | succ i ih =>
    rw [afterRuns_succ]
    exact ih.trans (run_of_exhausted (h.of_sameState ih) sink).2

/-- Behind a run that settles, every run ends as that one does and changes nothing. -/
theorem run_afterRuns_of_settled {i j : Nat} (hij : i ≤ j)
    (h : ((m.afterRuns sink i).run sink).Settled) :
    ((m.afterRuns sink j).run sink).error = ((m.afterRuns sink i).run sink).error ∧
      ((m.afterRuns sink j).run sink).SameEffect ((m.afterRuns sink i).run sink) := by
  by_cases heq : i = j
  · subst heq
    exact ⟨rfl, rfl, rfl, rfl⟩
  · obtain ⟨hexhausted, herror⟩ := exhausted_of_settled h
    have hlater : m.afterRuns sink j =
        ((m.afterRuns sink i).run sink).machine.afterRuns sink (j - (i + 1)) := by
      rw [← afterRuns_succ, afterRuns, afterRuns, afterRuns, ← Function.iterate_add_apply]
      congr 1
      omega
    have hbefore := sameState_afterRuns hexhausted sink (j - (i + 1))
    rw [← hlater] at hbefore
    obtain ⟨herror', hafter⟩ := run_of_exhausted (hexhausted.of_sameState hbefore) sink
    have hsame := hbefore.trans hafter
    refine ⟨?_, hsame.symbols, hsame.sink, hsame.statements⟩
    rw [herror', herror, hbefore.feed]

theorem unread_afterRuns (sink : Sink σ) (i : Nat) (m : Machine σ) :
    (m.afterRuns sink i).unread ≤ m.unread - i := by
  induction i with
  | zero => exact Nat.le_refl _
  | succ i ih =>
    have hrun := (m.afterRuns sink i).unread_run sink
    rw [afterRuns_succ]
    omega

@[simp] theorem error_afterRuns (sink : Sink σ) (i : Nat) (m : Machine σ) :
    (m.afterRuns sink i).feed.error = m.feed.error := by
  induction i with
  | zero => rfl
  | succ i ih => rw [afterRuns_succ, ← ih, feed_eq sink (m.afterRuns sink i)]

/-- The tokens that each of `k` runs in a row takes. -/
def readings (sink : Sink σ) (k : Nat) (m : Machine σ) : List (List Token) :=
  (List.range k).map fun i => (m.afterRuns sink i).consumed sink

theorem take_readings (sink : Sink σ) {k i : Nat} (h : i ≤ k) (m : Machine σ) :
    (m.readings sink k).take i = m.readings sink i := by
  rw [readings, ← List.map_take, List.take_range, Nat.min_eq_left h, readings]

/-- What the runs so far have taken stands in front of what they leave. -/
theorem feed_afterRuns (sink : Sink σ) (i : Nat) (m : Machine σ) :
    m.feed.tokens = (m.readings sink i).flatten ++ (m.afterRuns sink i).feed.tokens := by
  induction i with
  | zero => rfl
  | succ i ih =>
    have hrun := congrArg Scan.tokens (feed_eq sink (m.afterRuns sink i))
    have hlast : m.readings sink (i + 1) =
        m.readings sink i ++ [(m.afterRuns sink i).consumed sink] := by
      rw [readings, List.range_succ, List.map_append, readings, List.map_singleton]
    rw [ih, hrun, hlast, afterRuns_succ, List.flatten_concat, List.append_assoc]

end Machine

/-- Runs in a row settle. Once a run has come to the end of the text, or to a byte that starts no
token, every later run ends in the same way and leaves table, sink and count as they are. If the
source has `n` tokens without the end of input, the run behind the first `n` runs is one of these,
and it ends as the scan of the source does. Any other run takes at least one token. No token is
taken twice or left out: the tokens that the runs so far have taken, in order, with what is left
behind them, are the tokens of the source. -/
theorem runs_settle (sink : Sink σ) (src : Bytes) (symbols : SymbolTable) (state : σ) (k : Nat) :
    let n := ((tokenize src).tokens.filter fun t => t.kind ≠ .eof).length
    let runs := (Machine.start src symbols state).runs sink k
    let readings := (Machine.start src symbols state).readings sink k
    (∀ (i j : Nat) (e f : Execution σ), runs[i]? = some e → runs[j]? = some f → i ≤ j → e.Settled →
      f.error = e.error ∧ f.SameEffect e) ∧
    (n < k → ∃ e : Execution σ, runs[n]? = some e ∧ e.Settled ∧
      e.error = (tokenize src).error.map fun le => .program (.ofLexError le)) ∧
    (∀ (i : Nat) (e : Execution σ) (ts : List Token), runs[i]? = some e → readings[i]? = some ts →
      ¬ e.Settled → ∃ t ∈ ts, t.kind ≠ .eof) ∧
    ∀ (i : Nat) (e : Execution σ), runs[i]? = some e →
      (tokenize src).tokens = (readings.take (i + 1)).flatten ++ e.machine.feed.tokens := by
  intro n runs readings
  let m := Machine.start src symbols state
  refine ⟨?_, ?_, ?_, ?_⟩
  · intro i j e f he hf hij hsettled
    obtain ⟨-, rfl⟩ := Machine.getElem?_runs_iff.mp he
    obtain ⟨-, rfl⟩ := Machine.getElem?_runs_iff.mp hf
    exact Machine.run_afterRuns_of_settled hij hsettled
  · intro hn
    have hunread := m.unread_afterRuns sink n
    have hfinal : (m.afterRuns sink n).Exhausted := by
      rw [← Machine.unread_eq_zero_iff]
      have hstart : m.unread = n := rfl
      omega
    refine ⟨(m.afterRuns sink n).run sink, ?_, Machine.settled_of_exhausted hfinal sink, ?_⟩
    · exact Machine.getElem?_runs_iff.mpr ⟨hn, rfl⟩
    · rw [(Machine.run_of_exhausted hfinal sink).1, Scan.verdict, m.error_afterRuns sink n]
      rfl
  · intro i e ts he hts hsettled
    obtain ⟨hi, rfl⟩ := Machine.getElem?_runs_iff.mp he
    obtain ⟨-, rfl⟩ := getElem?_map_range_iff.mp hts
    apply Machine.exists_consumed
    intro hexhausted
    exact hsettled (Machine.settled_of_exhausted hexhausted sink)
  · intro i e he
    obtain ⟨hi, rfl⟩ := Machine.getElem?_runs_iff.mp he
    rw [← Machine.afterRuns_succ, Machine.take_readings sink hi]
    exact m.feed_afterRuns sink (i + 1)

/-- Four runs fail in the middle of the text, the third because its value is refused. The fifth one
comes to the byte that starts no token and settles, one run before it has to. -/
theorem runs_settle_refused :
    let src := utf8 "b; print 7; ?"
    let sink := Sink.failingAt 1
    let m := Machine.start src .empty ⟨0, []⟩
    let refused := (m.afterRuns sink 2).run sink
    let settled := (m.afterRuns sink 4).run sink
    let last := (m.afterRuns sink 6).run sink
    let unmatched : RunError := .program (.ofLexError ⟨⟨1, 13, 12⟩, utf8 "?"⟩)
    ((m.runs sink 7)[2]? = some refused ∧ (m.runs sink 7)[4]? = some settled ∧
      (m.runs sink 7)[6]? = some last) ∧
    (refused.error = some (.output (utf8 "sink full")) ∧
      ∃ t ∈ (m.afterRuns sink 2).consumed sink, t.kind ≠ .eof) ∧
    (settled.error = some unmatched ∧ last.error = settled.error ∧ last.SameEffect settled) ∧
    (∃ e, (m.runs sink 7)[5]? = some e ∧ e.error = some unmatched) ∧
    (tokenize src).tokens =
      ((m.readings sink 7).take 3).flatten ++ refused.machine.feed.tokens := by
  intro src sink m refused settled last unmatched
  have hcall : ∀ i < 7, (m.runs sink 7)[i]? = some ((m.afterRuns sink i).run sink) :=
    fun i hi => Machine.getElem?_runs_iff.mpr ⟨hi, rfl⟩
  have hreading : (m.readings sink 7)[2]? = some ((m.afterRuns sink 2).consumed sink) :=
    getElem?_map_range_iff.mpr ⟨by decide, rfl⟩
  have hrefused : refused.error = some (.output (utf8 "sink full")) := by decide +kernel
  have hunmatched : settled.error = some unmatched := by decide +kernel
  have hunsettled : ¬ refused.Settled := fun h => by cases h _ hrefused
  have hsettled : settled.Settled := by
    intro err herr
    rw [hunmatched] at herr
    cases herr
    rfl
  have hcount : ((tokenize src).tokens.filter fun t => t.kind ≠ .eof).length = 5 := by
    decide +kernel
  have hscan : (tokenize src).error = some ⟨⟨1, 13, 12⟩, utf8 "?"⟩ := by decide +kernel
  obtain ⟨hlater, hbound, htoken, hfront⟩ := runs_settle sink src .empty ⟨0, []⟩ 7
  rw [hcount, hscan] at hbound
  obtain ⟨e, he, -, herr⟩ := hbound (by decide)
  exact ⟨⟨hcall 2 (by decide), hcall 4 (by decide), hcall 6 (by decide)⟩,
    ⟨hrefused, htoken 2 refused _ (hcall 2 (by decide)) hreading hunsettled⟩,
    ⟨hunmatched, hlater 4 6 settled last (hcall 4 (by decide)) (hcall 6 (by decide)) (by decide)
      hsettled⟩,
    ⟨e, he, herr⟩, hfront 2 refused (hcall 2 (by decide))⟩

end StatementLang
