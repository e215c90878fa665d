import StatementLang.Interpreter.Run
import StatementLang.Proofs.Scan

/-!
# What a machine reads

A machine sees its source through its feed, the scan in front of its cursor. Reading takes the
first token off the feed and changes nothing else. A run from a statement boundary on is a read
followed by the statement loop; its equation says what one round of the loop does.
-/

namespace StatementLang

namespace Outcome

variable {σ α β γ : Type}

theorem andThen_eq_ok_iff {x : Outcome σ α} {f : α → Machine σ → Outcome σ β} {b : β}
    {n : Machine σ} : x.andThen f = .ok b n ↔ ∃ a m, x = .ok a m ∧ f a m = .ok b n := by
  cases x with
  | ok a m => simp
  | fail e m => simp

theorem andThen_assoc (x : Outcome σ α) (f : α → Machine σ → Outcome σ β)
    (g : β → Machine σ → Outcome σ γ) :
    (x.andThen f).andThen g = x.andThen fun a m => (f a m).andThen g := by
  cases x <;> rfl

end Outcome

namespace Machine

variable {σ : Type} {m : Machine σ}

def feed (m : Machine σ) : Scan := m.cursor.scan

def behind (m : Machine σ) : Machine σ := { m with cursor := m.cursor.next.2 }

@[simp] theorem behind_symbols (m : Machine σ) : m.behind.symbols = m.symbols := rfl
@[simp] theorem behind_sink (m : Machine σ) : m.behind.sink = m.sink := rfl
@[simp] theorem behind_events (m : Machine σ) : m.behind.events = m.events := rfl
@[simp] theorem behind_statements (m : Machine σ) : m.behind.statements = m.statements := rfl

theorem read_of_ok {t : Token} (h : m.cursor.next.1 = .ok t) : m.read = .ok t m.behind := by
  have hc : m.cursor.next = (.ok t, m.cursor.next.2) := by rw [← h]
  rw [read, hc, behind]

theorem read_of_error {e : LexError} (h : m.cursor.next.1 = .error e) :
    m.read = .fail (.program (.ofLexError e)) m.behind := by
  have hc : m.cursor.next = (.error e, m.cursor.next.2) := by rw [← h]
  rw [read, hc, behind]
  rfl

/-- A read gives the next token of the feed, the end of input again and again, or the failure of
the feed again and again. -/
theorem read_cases (m : Machine σ) :
    (∃ t, m.read = .ok t m.behind ∧ t.toLexeme.WellFormed ∧
      m.feed = ⟨t :: m.behind.feed.tokens, m.behind.feed.error⟩) ∨
    (∃ t, m.read = .ok t m.behind ∧ t.toLexeme = .eof ∧ m.feed = ⟨[t], none⟩ ∧
      m.behind.feed = m.feed) ∨
    (∃ e, m.read = .fail (.program (.ofLexError e)) m.behind ∧ m.feed = ⟨[], some e⟩ ∧
      m.behind.feed = m.feed) := by
  cases hc : m.cursor.next.1 with
  | error e =>
    exact .inr (.inr ⟨e, read_of_error hc, Cursor.scan_of_error hc, Cursor.scan_next_of_error hc⟩)
  | ok t =>
    rcases Cursor.next_ok_cases hc with ⟨ht, -, -⟩ | ⟨hwf, -, -⟩
    · have hk : t.kind = .eof := by rw [ht]
      exact .inr (.inl ⟨t, read_of_ok hc, ht, Cursor.scan_of_eof hc hk,
        Cursor.scan_next_of_eof hc hk⟩)
    · exact .inl ⟨t, read_of_ok hc, hwf, Cursor.scan_of_token hc hwf.kind_ne_eof⟩

/-- The first token of the feed is read off it, except that the end of input stays. -/
theorem read_of_token {t : Token} {ts : List Token} {e : Option LexError}
    (h : m.feed = ⟨t :: ts, e⟩) :
    m.read = .ok t m.behind ∧ m.behind.feed = if t.kind = .eof then m.feed else ⟨ts, e⟩ := by
  rcases m.read_cases with ⟨u, hr, hwf, hf⟩ | ⟨u, hr, hu, hf, hb⟩ | ⟨e, -, hf, -⟩
  · rw [h] at hf
    obtain ⟨⟨rfl, rfl⟩, rfl⟩ : (t = u ∧ ts = m.behind.feed.tokens) ∧ e = m.behind.feed.error := by
      simpa using hf
    exact ⟨hr, by rw [if_neg hwf.kind_ne_eof]⟩
  · rw [h] at hf
    obtain ⟨⟨rfl, -⟩, -⟩ : (t = u ∧ ts = []) ∧ e = none := by simpa using hf
    exact ⟨hr, by rw [if_pos (by rw [hu])]; exact hb⟩
  · rw [h] at hf
    cases hf

theorem read_of_failure {e : Option LexError} (h : m.feed = ⟨[], e⟩) :
    ∃ f, e = some f ∧ m.read = .fail (.program (.ofLexError f)) m.behind ∧
      m.behind.feed = m.feed := by
  rcases m.read_cases with ⟨u, -, -, hf⟩ | ⟨u, -, -, hf, -⟩ | ⟨f, hr, hf, hb⟩
  · rw [h] at hf
    cases hf
  · rw [h] at hf
    cases hf
  · rw [h] at hf
    obtain rfl : e = some f := by simpa using hf
    exact ⟨f, rfl, hr, hb⟩

/-- A lexeme in front of the machine is read off its feed. -/
theorem read_of_lexemes {l : Lexeme} {ls : List Lexeme} (h : m.feed.lexemes = l :: ls)
    (hk : l.kind ≠ .eof) :
    ∃ t, m.read = .ok t m.behind ∧ t.toLexeme = l ∧ m.behind.feed.lexemes = ls ∧
      m.behind.feed.error = m.feed.error := by
  rcases m.read_cases with ⟨t, hr, -, hf⟩ | ⟨t, hr, ht, hf, -⟩ | ⟨e, -, hf, -⟩
  · rw [hf] at h ⊢
    obtain ⟨rfl, rfl⟩ : t.toLexeme = l ∧ m.behind.feed.lexemes = ls := by
      simpa [Scan.lexemes] using h
    exact ⟨t, hr, rfl, rfl, rfl⟩
  · rw [hf] at h
    obtain ⟨rfl, -⟩ : t.toLexeme = l ∧ [] = ls := by simpa [Scan.lexemes] using h
    rw [ht] at hk
    exact absurd rfl hk
  · rw [hf] at h
    cases h

/-- A token other than the end of input was the first one of the feed. -/
theorem lexemes_of_read {t : Token} {n : Machine σ} (h : m.read = .ok t n) (hk : t.kind ≠ .eof) :
    n = m.behind ∧ t.toLexeme.WellFormed ∧ m.feed.lexemes = t.toLexeme :: n.feed.lexemes ∧
      m.feed.error = n.feed.error := by
  rcases m.read_cases with ⟨u, hr, hwf, hf⟩ | ⟨u, hr, hu, -, -⟩ | ⟨e, hr, -, -⟩
  · rw [hr] at h
    injection h with ht hn
    subst ht hn
    exact ⟨rfl, hwf, by rw [hf]; rfl, by rw [hf]⟩
  · rw [hr] at h
    injection h with ht hn
    rw [← ht, hu] at hk
    exact absurd rfl hk
  · rw [hr] at h
    cases h

theorem read_of_eof (h : m.feed.lexemes = [.eof]) :
    ∃ t, m.read = .ok t m.behind ∧ t.kind = .eof := by
  rcases m.read_cases with ⟨t, hr, hwf, hf⟩ | ⟨t, hr, ht, -, -⟩ | ⟨e, -, hf, -⟩
  · rw [hf] at h
    obtain ⟨ht, -⟩ : t.toLexeme = .eof ∧ m.behind.feed.tokens = [] := by
      simpa [Scan.lexemes] using h
    exact absurd (by rw [ht]) hwf.kind_ne_eof
  · exact ⟨t, hr, by rw [ht]⟩
  · rw [hf] at h
    cases h

/-- Runs from a statement boundary on. -/
def proceed (sink : Sink σ) (m : Machine σ) : Outcome σ Unit := m.read.andThen (loop sink)

theorem loop_eq (sink : Sink σ) (t : Token) (m : Machine σ) :
    m.loop sink t = if t.kind = .eof then .ok () (m.record (.finished m.statements m.symbols.size))
      else (m.terminated sink t).andThen (loop sink) := by
  rw [loop]
  split
  · rfl
  · split <;> rename_i hr <;> rw [hr] <;> rfl

/-- One round: a statement, its semicolon, and on from there. -/
theorem proceed_eq (sink : Sink σ) (m : Machine σ) :
    m.proceed sink = m.read.andThen fun t m =>
      if t.kind = .eof then .ok () (m.record (.finished m.statements m.symbols.size))
      else (m.statement sink t).andThen fun _ m => m.read.andThen fun s m =>
        if s.kind = .semicolon then { m with statements := m.statements + 1 }.proceed sink
        else m.complain (.unexpected .semicolon s) := by
  rw [proceed]
  congr 1
  funext t m
  rw [loop_eq]
  split
  · rfl
  · simp only [terminated, Outcome.andThen_assoc]
    congr 1
    funext _ m
    congr 1
    funext s m
    split <;> rfl

end Machine

variable {σ : Type}

/-- A run of a source proceeds from its start. -/
theorem execute_eq (sink : Sink σ) (src : Bytes) (symbols : SymbolTable) (state : σ) :
    execute sink src symbols state =
      match (Machine.start src symbols state).proceed sink with
      | .ok _ m => ⟨none, m⟩
      | .fail e m => ⟨some e, m⟩ := rfl

end StatementLang
