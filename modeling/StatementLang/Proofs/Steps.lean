import StatementLang.Proofs.Pulling
import StatementLang.Proofs.Reading

/-!
# What a step looks at

A step that succeeds has looked at the text only through the tokens it read: in front of any other
text that starts with these tokens it does the same. And no step looks at the count of statements
or at the events so far. Both are kept by doing one step after another, so they are shown of the
primitive steps and follow for a whole statement.
-/

namespace StatementLang

variable {σ α β : Type}

namespace Outcome

def mapMachine (f : Machine σ → Machine σ) : Outcome σ α → Outcome σ α
  | .ok a m => .ok a (f m)
  | .fail e m => .fail e (f m)

end Outcome

namespace Machine

variable {m n : Machine σ} {sink : Sink σ} {t : Token}

def facing (c : Cursor) (m : Machine σ) : Machine σ := { m with cursor := c }

@[simp] theorem facing_cursor (c : Cursor) (m : Machine σ) : (m.facing c).cursor = c := rfl
@[simp] theorem facing_symbols (c : Cursor) (m : Machine σ) :
    (m.facing c).symbols = m.symbols := rfl
@[simp] theorem facing_sink (c : Cursor) (m : Machine σ) : (m.facing c).sink = m.sink := rfl

/-- Reading gives a token exactly if pulling does. -/
@[simp] theorem read_eq_ok_iff : m.read = .ok t n ↔ m.cursor.next.1 = .ok t ∧ n = m.behind := by
  constructor
  · intro h
    cases hc : m.cursor.next.1 with
    | ok u =>
      rw [read_of_ok hc] at h
      injection h with ht hn
      exact ⟨by rw [ht], hn.symm⟩
    | error e => rw [read_of_error hc] at h; cases h
  · rintro ⟨ht, rfl⟩
    exact read_of_ok ht

/-- A success of the step depends on the tokens it reads and on nothing else of the text. -/
def Tokenwise (f : Machine σ → Outcome σ α) : Prop :=
  ∀ ⦃m n : Machine σ⦄ ⦃a : α⦄, f m = .ok a n → ∃ ts, m.cursor.Reads ts n.cursor ∧
    ∀ c d : Cursor, c.Reads ts d → f (m.facing c) = .ok a (n.facing d)

namespace Tokenwise

/-- A step that reads nothing and does the same in front of every text. -/
theorem of_still {f : Machine σ → Outcome σ α}
    (h : ∀ m n a, f m = .ok a n → n.cursor = m.cursor ∧ ∀ c, f (m.facing c) = .ok a (n.facing c)) :
    Tokenwise f := by
  intro m n a hf
  obtain ⟨hcursor, hface⟩ := h m n a hf
  refine ⟨[], by rw [hcursor]; exact .nil _, fun c d hr => ?_⟩
  obtain rfl := Cursor.Reads.nil_iff.mp hr
  exact hface d

theorem andThen {f : Machine σ → Outcome σ α} {g : α → Machine σ → Outcome σ β}
    (hf : Tokenwise f) (hg : ∀ a, Tokenwise (g a)) : Tokenwise fun m => (f m).andThen g := by
  intro m n b h
  obtain ⟨a, k, hfm, hgk⟩ := Outcome.andThen_eq_ok_iff.mp h
  obtain ⟨ts, hts, hface⟩ := hf hfm
  obtain ⟨us, hus, hface'⟩ := hg a hgk
  refine ⟨ts ++ us, hts.trans hus, fun c e hr => ?_⟩
  obtain ⟨d, hd, he⟩ := Cursor.Reads.append_iff.mp hr
  exact Outcome.andThen_eq_ok_iff.mpr ⟨a, k.facing d, hface c d hd, hface' d e he⟩

/-- A step that goes on with a token, and does not take the end of input for one. -/
theorem read {g : Token → Machine σ → Outcome σ β} (hg : ∀ t, Tokenwise (g t))
    (heof : ∀ t m b n, g t m = .ok b n → t.kind ≠ .eof) :
    Tokenwise fun m => m.read.andThen g := by
  intro m n b h
  obtain ⟨t, k, hr, hgk⟩ := Outcome.andThen_eq_ok_iff.mp h
  obtain ⟨ht, rfl⟩ := read_eq_ok_iff.mp hr
  obtain ⟨ts, hts, hface⟩ := hg t hgk
  refine ⟨t :: ts, .cons ht (heof t _ b n hgk) hts, fun c d hd => ?_⟩
  obtain ⟨ht', -, hrest⟩ := Cursor.Reads.cons_iff.mp hd
  refine Outcome.andThen_eq_ok_iff.mpr ⟨t, m.facing c.next.2, ?_, hface _ d hrest⟩
  exact read_eq_ok_iff.mpr ⟨ht', rfl⟩

end Tokenwise

theorem tokenwise_expression : Tokenwise (expression (σ := σ)) := by
  refine .read (fun t => .of_still fun m n v h => ?_) fun t m v n h hk => ?_
  · cases he : evaluate m.symbols t with
    | ok w =>
      simp only [he] at h
      injection h with hv hn
      subst hv hn
      exact ⟨rfl, fun c => by simp [he]⟩
    | error e => simp only [he] at h; cases h
  · simp only [evaluate, hk] at h
    cases h

theorem tokenwise_declaration : Tokenwise (declaration (σ := σ)) := by
  refine .read (fun t => .of_still fun m n u h => ?_) fun t m u n h hk => ?_
  · split at h
    · rename_i hk
      cases hd : m.symbols.declare t.literal with
      | ok symbols =>
        simp only [hd] at h
        injection h with _ hn
        subst hn
        exact ⟨rfl, fun c => by simp only [if_pos hk, facing_symbols, hd]; rfl⟩
      | error e => simp only [hd] at h; cases h
    · cases h
  · rw [if_neg (by rw [hk]; decide)] at h
    cases h

theorem tokenwise_assignment (target : Token) : Tokenwise (assignment (σ := σ) target) := by
  have hrest : Tokenwise fun m : Machine σ => m.read.andThen fun t m =>
      if t.kind = .assign then
        m.expression.andThen fun v m =>
          .ok () ({ m with symbols := m.symbols.set target.literal v }.record
            (.assigned target.literal v target.pos))
      else m.complain (.unexpected .assignment t) := by
    refine .read (fun t => ?_) fun t m u n h hk => ?_
    · by_cases hk : t.kind = .assign
      · simp only [hk, if_true]
        refine tokenwise_expression.andThen fun v => .of_still fun m n u h => ?_
        injection h with _ hn
        subst hn
        exact ⟨rfl, fun c => rfl⟩
      · simp only [hk, if_false]
        exact .of_still fun m n u h => by cases h
    · rw [if_neg (by rw [hk]; decide)] at h
      cases h
  intro m n u h
  simp only [assignment] at h
  split at h
  · cases h
  · rename_i old hold
    obtain ⟨ts, hts, hface⟩ := hrest h
    refine ⟨ts, hts, fun c d hd => ?_⟩
    simp only [assignment, facing_symbols, hold]
    exact hface c d hd

theorem tokenwise_printing (sink : Sink σ) (pos : Position) : Tokenwise (printing sink pos) := by
  refine tokenwise_expression.andThen fun v => .of_still fun m n u h => ?_
  cases hv : sink.emit m.sink v with
  | mk s reason =>
    simp only [hv] at h
    cases reason with
    | none =>
      injection h with _ hn
      subst hn
      exact ⟨rfl, fun c => by simp only [facing_sink, hv]; rfl⟩
    | some reason => cases h

/-- A statement is executed alike wherever its tokens stand. -/
theorem tokenwise_statement (sink : Sink σ) (t : Token) : Tokenwise (statement sink t) := by
  intro m n u h
  simp only [statement] at h ⊢
  split at h
  · exact tokenwise_declaration h
  · exact tokenwise_assignment t h
  · exact tokenwise_printing sink t.pos h
  · cases h

/-- From one statement boundary to the next: a statement and its semicolon. -/
def round (sink : Sink σ) (m : Machine σ) : Outcome σ Unit :=
  (m.read.andThen (statement sink)).andThen fun _ m => m.read.andThen fun s m =>
    if s.kind = .semicolon then .ok () { m with statements := m.statements + 1 }
    else m.complain (.unexpected .semicolon s)

theorem kind_ne_eof_of_statement (h : m.statement sink t = .ok () n) : t.kind ≠ .eof := by
  intro hk
  simp only [statement, hk] at h
  cases h

/-- A run from a boundary is at the end of the text, or it goes on behind the first round, or it
fails in it. -/
theorem proceed_cases (sink : Sink σ) (m : Machine σ) :
    (∃ t, m.cursor.next.1 = .ok t ∧ t.kind = .eof ∧
      m.proceed sink = .ok () (m.behind.record (.finished m.statements m.symbols.size))) ∨
    (∃ n, m.round sink = .ok () n ∧ m.proceed sink = n.proceed sink) ∨
    (∃ e n, (∀ t, m.cursor.next.1 = .ok t → t.kind ≠ .eof) ∧ m.round sink = .fail e n ∧
      m.proceed sink = .fail e n) := by
  rw [proceed_eq, round]
  cases hc : m.cursor.next.1 with
  | error e =>
    rw [read_of_error hc]
    exact .inr (.inr ⟨_, _, (by intro t ht; cases ht), rfl, rfl⟩)
  | ok t =>
    rw [read_of_ok hc]
    simp only [Outcome.ok_andThen]
    by_cases hk : t.kind = .eof
    · exact .inl ⟨t, rfl, hk, by rw [if_pos hk]; rfl⟩
    · have hne : ∀ u, (Except.ok t : Except LexError Token) = .ok u → u.kind ≠ .eof := by
        rintro u ⟨⟩
        exact hk
      rw [if_neg hk]
      refine .inr ?_
      cases m.behind.statement sink t with
      | fail e n => exact .inr ⟨e, n, hne, rfl, rfl⟩
      | ok u m₂ =>
        simp only [Outcome.ok_andThen]
        cases m₂.read with
        | fail e n => exact .inr ⟨e, n, hne, rfl, rfl⟩
        | ok s m₃ =>
          simp only [Outcome.ok_andThen]
          by_cases hs : s.kind = .semicolon
          · exact .inl ⟨{ m₃ with statements := m₃.statements + 1 }, by rw [if_pos hs],
              by rw [if_pos hs]⟩
          · exact .inr ⟨.program (.unexpected .semicolon s), m₃, hne, by rw [if_neg hs]; rfl,
              by rw [if_neg hs]; rfl⟩

theorem proceed_of_round (h : m.round sink = .ok () n) : m.proceed sink = n.proceed sink := by
  rcases m.proceed_cases sink with ⟨t, ht, hk, -⟩ | ⟨n', hn, hp⟩ | ⟨e, n', -, hn, -⟩
  · obtain ⟨_, _, hopen, -⟩ := Outcome.andThen_eq_ok_iff.mp h
    rw [read_of_ok ht] at hopen
    exact absurd hk (kind_ne_eof_of_statement hopen)
  · rw [h] at hn
    injection hn with _ hn
    rw [hp, hn]
  · rw [h] at hn
    cases hn

/-- In front of anything but the end of input a run is a round and what follows it. -/
theorem proceed_eq_round (h : ∀ t, m.cursor.next.1 = .ok t → t.kind ≠ .eof) :
    m.proceed sink = (m.round sink).andThen fun _ n => n.proceed sink := by
  rcases m.proceed_cases sink with ⟨t, ht, hk, -⟩ | ⟨n, hn, hp⟩ | ⟨e, n, -, hn, hp⟩
  · exact absurd hk (h t ht)
  · rw [hp, hn]
    rfl
  · rw [hp, hn]
    rfl

/-- The tokens of a round end with its semicolon, and wherever they stand the round is the same. -/
theorem round_reads (h : m.round sink = .ok () n) :
    ∃ ts s, s.kind = .semicolon ∧ m.cursor.Reads (ts ++ [s]) n.cursor ∧
      ∀ c d : Cursor, c.Reads (ts ++ [s]) d → (m.facing c).round sink = .ok () (n.facing d) := by
  have hopen : Tokenwise fun m : Machine σ => m.read.andThen (statement sink) :=
    .read (tokenwise_statement sink) fun t m u n h => kind_ne_eof_of_statement h
  obtain ⟨u, k, hk, h⟩ := Outcome.andThen_eq_ok_iff.mp h
  obtain ⟨s, k', hr, h⟩ := Outcome.andThen_eq_ok_iff.mp h
  obtain ⟨hs, rfl⟩ := read_eq_ok_iff.mp hr
  obtain ⟨ts, hts, hface⟩ := hopen hk
  split at h
  · rename_i hsemi
    injection h with _ hn
    subst hn
    have hne : s.kind ≠ .eof := by rw [hsemi]; decide
    refine ⟨ts, s, hsemi, hts.trans (.single hs hne), fun c e hc => ?_⟩
    obtain ⟨d, hd, he⟩ := Cursor.Reads.append_iff.mp hc
    obtain ⟨hs', -, hnil⟩ := Cursor.Reads.cons_iff.mp he
    obtain rfl := Cursor.Reads.nil_iff.mp hnil
    have hsame : (m.facing c).read.andThen (statement sink) = .ok u (k.facing d) := hface c d hd
    rw [round, hsame, Outcome.ok_andThen, read_of_ok (m := k.facing d) hs', Outcome.ok_andThen,
      if_pos hsemi]
    rfl
  · cases h

theorem left_round_lt (h : m.round sink = .ok () n) : n.left < m.left := by
  obtain ⟨ts, s, -, hreads, -⟩ := round_reads h
  obtain ⟨text, hpass, hlex⟩ := hreads.lexes
  have hne : text ≠ [] := by
    rintro rfl
    have := hlex.eq_nil_of_blank blank_nil
    simp at this
  have hlen := congrArg List.length hpass.rest
  have hpos := List.length_pos_iff.mpr hne
  rw [List.length_append] at hlen
  simp only [left]
  omega

/-- The machine with statements counted and events recorded before it started. -/
def resumed (count : Nat) (past : List Event) (m : Machine σ) : Machine σ :=
  { m with statements := m.statements + count, events := m.events ++ past }

@[simp] theorem resumed_symbols (count : Nat) (past : List Event) (m : Machine σ) :
    (m.resumed count past).symbols = m.symbols := rfl
@[simp] theorem resumed_sink (count : Nat) (past : List Event) (m : Machine σ) :
    (m.resumed count past).sink = m.sink := rfl

/-- The step does not look at what was counted and recorded before it. -/
def Forward (f : Machine σ → Outcome σ α) : Prop :=
  ∀ (count : Nat) (past : List Event) (m : Machine σ),
    f (m.resumed count past) = (f m).mapMachine (resumed count past)

theorem Forward.andThen {f : Machine σ → Outcome σ α} {g : α → Machine σ → Outcome σ β}
    (hf : Forward f) (hg : ∀ a, Forward (g a)) : Forward fun m => (f m).andThen g := by
  intro count past m
  show (f (m.resumed count past)).andThen g = ((f m).andThen g).mapMachine _
  rw [hf]
  cases f m with
  | ok a m => exact hg a count past m
  | fail e m => rfl

theorem forward_read : Forward (read (σ := σ)) := by
  intro count past m
  cases hc : m.cursor.next.1 with
  | ok t => rw [read_of_ok hc, read_of_ok (m := m.resumed count past) hc]; rfl
  | error e => rw [read_of_error hc, read_of_error (m := m.resumed count past) hc]; rfl

theorem forward_expression : Forward (expression (σ := σ)) :=
  forward_read.andThen fun t count past m => by
    simp only [resumed_symbols]
    cases evaluate m.symbols t <;> rfl

theorem forward_declaration : Forward (declaration (σ := σ)) :=
  forward_read.andThen fun t count past m => by
    simp only [resumed_symbols]
    split
    · cases m.symbols.declare t.literal <;> rfl
    · rfl

theorem forward_assignment (target : Token) : Forward (assignment (σ := σ) target) := by
  intro count past m
  simp only [assignment, resumed_symbols]
  split
  · rfl
  · refine forward_read.andThen (fun t count past m => ?_) count past m
    split
    · exact forward_expression.andThen (fun v count past m => rfl) count past m
    · rfl

theorem forward_printing (sink : Sink σ) (pos : Position) : Forward (printing sink pos) :=
  forward_expression.andThen fun v count past m => by
    simp only [resumed_sink]
    split <;> rfl

theorem forward_statement (sink : Sink σ) (t : Token) : Forward (statement sink t) := by
  intro count past m
  simp only [statement]
  split
  · exact forward_declaration count past m
  · exact forward_assignment t count past m
  · exact forward_printing sink t.pos count past m
  · rfl

theorem forward_terminated (sink : Sink σ) (t : Token) : Forward (terminated sink t) := by
  refine (forward_statement sink t).andThen fun _ => forward_read.andThen fun s count past m => ?_
  split
  · rw [← forward_read]
    simp only [resumed, Nat.add_right_comm]
  · rfl

end Machine

end StatementLang
