import StatementLang.Proofs.Steps

/-!
# The pulls of a run

A run sees its source only through the results of its pulls, tokens and failures. Here each step is
kept together with the results of the pulls it makes: it does the same in front of every text that
gives these results first, and a failed pull is how it fails. Doing one step after another keeps
this, so it holds of a statement, and by induction on the rounds of a whole run.
-/

namespace StatementLang

variable {σ α β : Type}

namespace Cursor

variable {c : Cursor} {rs us : List (Except LexError Token)}

def behindPulls : Nat → Cursor → Cursor
  | 0, c => c
  | n + 1, c => behindPulls n c.next.2

@[simp] theorem pulls_zero (c : Cursor) : c.pulls 0 = [] := rfl
@[simp] theorem pulls_succ (n : Nat) (c : Cursor) :
    c.pulls (n + 1) = c.next.1 :: c.next.2.pulls n := rfl
@[simp] theorem behindPulls_zero (c : Cursor) : c.behindPulls 0 = c := rfl
@[simp] theorem behindPulls_succ (n : Nat) (c : Cursor) :
    c.behindPulls (n + 1) = c.next.2.behindPulls n := rfl

theorem behindPulls_add (j k : Nat) (c : Cursor) :
    c.behindPulls (j + k) = (c.behindPulls j).behindPulls k := by
  induction j generalizing c with
  | zero => simp
  | succ j ih => rw [Nat.succ_add, behindPulls_succ, behindPulls_succ, ih]

theorem pulls_add (j k : Nat) (c : Cursor) :
    c.pulls (j + k) = c.pulls j ++ (c.behindPulls j).pulls k := by
  induction j generalizing c with
  | zero => simp
  | succ j ih => simp [Nat.succ_add, ih]

@[simp] theorem length_pulls (n : Nat) (c : Cursor) : (c.pulls n).length = n := by
  induction n generalizing c with
  | zero => rfl
  | succ n ih => simp [ih]

/-- The next pulls have these results. -/
def Gives (c : Cursor) (rs : List (Except LexError Token)) : Prop := c.pulls rs.length = rs

theorem Gives.nil (c : Cursor) : c.Gives [] := rfl

@[simp] theorem gives_cons_iff {r : Except LexError Token} :
    c.Gives (r :: rs) ↔ c.next.1 = r ∧ c.next.2.Gives rs := by
  simp [Gives]

@[simp] theorem gives_append_iff :
    c.Gives (rs ++ us) ↔ c.Gives rs ∧ (c.behindPulls rs.length).Gives us := by
  rw [Gives, List.length_append, pulls_add]
  constructor
  · exact fun h => List.append_inj h (length_pulls rs.length c)
  · rintro ⟨hrs, hus⟩
    rw [hrs, hus]

/-- Tokens that were pulled are what the pulls give. -/
theorem Reads.gives {d : Cursor} {ts : List Token} (h : c.Reads ts d) :
    c.Gives (ts.map Except.ok) := by
  induction h with
  | nil c => exact .nil c
  | cons ht _ _ ih => exact gives_cons_iff.mpr ⟨ht, ih⟩

/-- Behind the end of input there is no other token, so all tokens were pulled if the last one is
not the end of input. -/
theorem Gives.reads {ts : List Token} (h : c.Gives (ts.map Except.ok))
    (hlast : ∀ t ∈ ts.getLast?, t.kind ≠ .eof) : c.Reads ts (c.behindPulls ts.length) := by
  induction ts generalizing c with
  | nil => exact .nil c
  | cons t ts ih =>
    obtain ⟨ht, hrest⟩ := gives_cons_iff.mp h
    cases ts with
    | nil => exact .single ht (hlast t (by simp))
    | cons u ts =>
      have hd := ih hrest (by simpa using hlast)
      refine .cons ht (fun hk => ?_) hd
      obtain ⟨hu, huk, -⟩ := Reads.cons_iff.mp hd
      rcases next_ok_cases ht with ⟨-, -, hskip⟩ | ⟨hwf, -, -⟩
      · rw [hskip, next_skipBlanks, ht] at hu
        injection hu with hu
        exact huk (hu ▸ hk)
      · exact hwf.kind_ne_eof hk

end Cursor

@[simp] theorem Outcome.machine_mapMachine (f : Machine σ → Machine σ) (x : Outcome σ α) :
    (x.mapMachine f).machine = f x.machine := by
  cases x <;> rfl

/-- The pulls that a step makes, by their results. -/
structure Pulls (f : Machine σ → Outcome σ α) where
  results : Machine σ → List (Except LexError Token)
  given (m : Machine σ) : m.cursor.Gives (results m)
  /-- In front of any text that gives the same results the step does the same. -/
  replay (m : Machine σ) (c : Cursor) (h : c.Gives (results m)) :
    f (m.facing c) = (f m).mapMachine (Machine.facing (c.behindPulls (results m).length))
  /-- A failed pull is the failure of the step. -/
  failed (m : Machine σ) (e : LexError) (h : .error e ∈ results m) :
    ∃ n, f m = .fail (.program (.ofLexError e)) n

namespace Pulls

open Machine Cursor

variable {f g : Machine σ → Outcome σ α} {k : α → Machine σ → Outcome σ β}

/-- A step leaves the cursor behind its pulls. -/
theorem cursor_eq (x : Pulls f) (m : Machine σ) :
    (f m).machine.cursor = m.cursor.behindPulls (x.results m).length := by
  have h : f m = _ := x.replay m m.cursor (x.given m)
  rw [h, Outcome.machine_mapMachine, facing_cursor]

def read : Pulls (Machine.read (σ := σ)) where
  results m := [m.cursor.next.1]
  given _ := rfl
  replay m c h := by
    obtain ⟨hc, -⟩ := gives_cons_iff.mp h
    cases hm : m.cursor.next.1 with
    | ok t =>
      rw [read_of_ok hm, read_of_ok (m := m.facing c) (hc.trans hm)]
      rfl
    | error e =>
      rw [read_of_error hm, read_of_error (m := m.facing c) (hc.trans hm)]
      rfl
  failed m _ h := ⟨m.behind, read_of_error (List.mem_singleton.mp h).symm⟩

/-- A step that does not look at the text pulls nothing. -/
def still (hf : ∀ m c, f (m.facing c) = (f m).mapMachine (facing c)) : Pulls f where
  results _ := []
  given m := .nil m.cursor
  replay m c _ := hf m c
  failed _ _ h := by cases h

def andThen (x : Pulls f) (y : ∀ a, Pulls (k a)) : Pulls fun m => (f m).andThen k where
  results m := x.results m ++ match f m with
    | .ok a n => (y a).results n
    | .fail _ _ => []
  given m := by
    refine gives_append_iff.mpr ⟨x.given m, ?_⟩
    have hcursor := x.cursor_eq m
    cases hx : f m with
    | ok a n =>
      rw [hx] at hcursor
      rw [← hcursor]
      exact (y a).given n
    | fail e n => exact .nil _
  replay m c h := by
    obtain ⟨hfirst, hrest⟩ := gives_append_iff.mp h
    rw [x.replay m c hfirst, List.length_append, behindPulls_add]
    cases hx : f m with
    | ok a n =>
      rw [hx] at hrest
      exact (y a).replay n _ hrest
    | fail e n => rfl
  failed m e h := by
    rcases List.mem_append.mp h with h | h
    · obtain ⟨n, hn⟩ := x.failed m e h
      exact ⟨n, by rw [hn]; rfl⟩
    · cases hx : f m with
      | ok a n =>
        rw [hx] at h
        exact (y a).failed n e h
      | fail e n => rw [hx] at h; cases h

/-- Steps that are equal make the same pulls. -/
def congr (x : Pulls f) (h : ∀ m, g m = f m) : Pulls g where
  results := x.results
  given := x.given
  replay m c hc := by rw [h, h, x.replay m c hc]
  failed m e he := by rw [h]; exact x.failed m e he

/-- One of two steps, whichever the condition says. -/
def ite (p : Prop) [Decidable p] (x : Pulls f) (y : Pulls g) :
    Pulls fun m => if p then f m else g m :=
  if h : p then x.congr fun _ => if_pos h else y.congr fun _ => if_neg h

def expression : Pulls (Machine.expression (σ := σ)) :=
  read.andThen fun t => still fun m c => by
    simp only [facing_symbols]
    cases evaluate m.symbols t <;> rfl

def declaration : Pulls (Machine.declaration (σ := σ)) :=
  read.andThen fun t => still fun m c => by
    simp only [facing_symbols]
    split
    · cases m.symbols.declare t.literal <;> rfl
    · rfl

/-- A step that the table chooses. -/
def ofSymbols {h : SymbolTable → Machine σ → Outcome σ α} (x : ∀ symbols, Pulls (h symbols)) :
    Pulls fun m => h m.symbols m where
  results m := (x m.symbols).results m
  given m := (x m.symbols).given m
  replay m := (x m.symbols).replay m
  failed m := (x m.symbols).failed m

/-- The target is looked up before anything is pulled. -/
def assignment (target : Token) : Pulls (Machine.assignment (σ := σ) target) :=
  ofSymbols (h := fun symbols m =>
    match symbols.lookup target.literal with
    | .error e => m.complain ⟨.symbol e, target.pos⟩
    | .ok _ => m.read.andThen fun t m =>
      if t.kind = .assign then
        m.expression.andThen fun v m =>
          .ok () ({ m with symbols := m.symbols.set target.literal v }.record
            (.assigned target.literal v target.pos))
      else m.complain (.unexpected .assignment t))
    fun symbols =>
      match symbols.lookup target.literal with
      | .error _ => still fun _ _ => rfl
      | .ok _ => read.andThen fun _ =>
        .ite _ (expression.andThen fun _ => still fun _ _ => rfl) (still fun _ _ => rfl)

def printing (sink : Sink σ) (pos : Position) : Pulls (Machine.printing sink pos) :=
  expression.andThen fun v => still fun m c => by
    simp only [facing_sink]
    cases sink.emit m.sink v with
    | mk s reason => cases reason <;> rfl

def statement (sink : Sink σ) (t : Token) : Pulls (Machine.statement sink t) :=
  match hk : t.kind with
  | .var => declaration.congr fun m => by rw [Machine.statement, hk]
  | .ident => (assignment t).congr fun m => by rw [Machine.statement, hk]
  | .print => (printing sink t.pos).congr fun m => by rw [Machine.statement, hk]
  | .eof | .semicolon | .assign | .int | .other _ => still fun m c => by
    rw [Machine.statement, Machine.statement, hk]
    rfl

def round (sink : Sink σ) : Pulls (Machine.round sink) :=
  (read.andThen (statement sink)).andThen fun _ => read.andThen fun _ =>
    .ite _ (still fun _ _ => rfl) (still fun _ _ => rfl)

end Pulls

namespace Machine

open Cursor

variable {sink : Sink σ} {m n : Machine σ} {e : RunError}

/-- The results of the pulls that a run makes. It has come to its end if the next round finds the
end of input. -/
def pulls (sink : Sink σ) (m : Machine σ) : List (Except LexError Token) :=
  (Pulls.round sink).results m ++ match _h : m.round sink with
    | .ok _ n => n.pulls sink
    | .fail _ _ => []
termination_by m.left
decreasing_by exact left_round_lt _h

theorem pulls_of_ok (h : m.round sink = .ok () n) :
    m.pulls sink = (Pulls.round sink).results m ++ n.pulls sink := by
  rw [pulls]
  split <;> simp_all

theorem pulls_of_fail (h : m.round sink = .fail e n) :
    m.pulls sink = (Pulls.round sink).results m := by
  rw [pulls]
  split <;> simp_all

/-- A fact about all machines may be shown of a machine from the one behind the next round. -/
theorem round_induction (sink : Sink σ) {motive : Machine σ → Prop}
    (step : ∀ m, (∀ n, m.round sink = .ok () n → motive n) → motive m) (m : Machine σ) :
    motive m := by
  induction hlen : m.left using Nat.strongRecOn generalizing m with
  | ind k ih => exact step m fun n hn => ih _ (hlen ▸ left_round_lt hn) n rfl

theorem gives_pulls (sink : Sink σ) (m : Machine σ) : m.cursor.Gives (m.pulls sink) := by
  induction m using round_induction sink with
  | step m ih =>
    have hround := (Pulls.round sink).given m
    cases h : m.round sink with
    | fail e n => rwa [pulls_of_fail h]
    | ok u n =>
      have hcursor := (Pulls.round sink).cursor_eq m
      rw [h] at hcursor
      rw [pulls_of_ok h]
      exact gives_append_iff.mpr ⟨hround, hcursor ▸ ih n h⟩

theorem proceed_of_failed_round (h : m.round sink = .fail e n)
    (hne : ∀ t, m.cursor.next.1 = .ok t → t.kind ≠ .eof) : m.proceed sink = .fail e n := by
  rcases m.proceed_cases sink with ⟨t, ht, hk, -⟩ | ⟨k, hk, -⟩ | ⟨err, k, -, hk, hp⟩
  · exact absurd hk (hne t ht)
  · rw [h] at hk
    cases hk
  · rw [hp, ← hk, h]

/-- A run that fails does so in front of any text that gives the same results, and reads no
further than these. -/
theorem proceed_replay {c : Cursor} (h : m.proceed sink = .fail e n)
    (hc : c.Gives (m.pulls sink)) :
    (m.facing c).proceed sink =
      .fail e (n.facing (c.behindPulls (m.pulls sink).length)) := by
  induction m using round_induction sink generalizing c with
  | step m ih =>
    rcases m.proceed_cases sink with ⟨t, -, -, hp⟩ | ⟨k, hk, hp⟩ | ⟨err, k, hne, hk, hp⟩
    · rw [h] at hp
      cases hp
    · rw [pulls_of_ok hk] at hc
      obtain ⟨hfirst, hrest⟩ := gives_append_iff.mp hc
      have hround := (Pulls.round sink).replay m c hfirst
      rw [hk] at hround
      rw [proceed_of_round hround, pulls_of_ok hk, List.length_append, behindPulls_add]
      exact ih k hk (hp ▸ h) hrest
    · rw [h] at hp
      injection hp with herr hn
      subst herr hn
      rw [pulls_of_fail hk] at hc ⊢
      have hround := (Pulls.round sink).replay m c hc
      rw [hk] at hround
      obtain ⟨more, hmore⟩ : ∃ more, (Pulls.round sink).results m = m.cursor.next.1 :: more :=
        ⟨_, rfl⟩
      rw [hmore] at hc
      exact proceed_of_failed_round hround fun t ht =>
        hne t ((gives_cons_iff.mp hc).1.symm.trans ht)

/-- A run that fails leaves the cursor behind its pulls. -/
theorem cursor_of_fail (h : m.proceed sink = .fail e n) :
    n.cursor = m.cursor.behindPulls (m.pulls sink).length := by
  have hsame : m.proceed sink = _ := proceed_replay h (m.gives_pulls sink)
  rw [h] at hsame
  injection hsame with _ hn
  rw [hn, facing_cursor]

theorem round_of_eof (sink : Sink σ) {t : Token} (ht : m.cursor.next.1 = .ok t)
    (hk : t.kind = .eof) :
    m.round sink = .fail (.program (.unexpected .statement t)) m.behind := by
  rw [round, read_of_ok ht, Outcome.ok_andThen, statement, hk]
  rfl

/-- A failed pull is the failure of the run. -/
theorem proceed_failed {le : LexError} (h : .error le ∈ m.pulls sink) :
    ∃ n, m.proceed sink = .fail (.program (.ofLexError le)) n := by
  induction m using round_induction sink with
  | step m ih =>
    rcases m.proceed_cases sink with ⟨t, ht, hkind, hp⟩ | ⟨k, hk, hp⟩ | ⟨err, k, hne, hk, hp⟩
    · have hround := round_of_eof sink ht hkind
      rw [pulls_of_fail hround] at h
      obtain ⟨n, hn⟩ := (Pulls.round sink).failed m le h
      rw [hround] at hn
      cases hn
    · rw [pulls_of_ok hk] at h
      rcases List.mem_append.mp h with h | h
      · obtain ⟨n, hn⟩ := (Pulls.round sink).failed m le h
        rw [hk] at hn
        cases hn
      · rw [hp]
        exact ih k hk h
    · rw [pulls_of_fail hk] at h
      obtain ⟨n, hn⟩ := (Pulls.round sink).failed m le h
      exact ⟨n, by rw [hp, ← hk, hn]⟩

end Machine

end StatementLang
