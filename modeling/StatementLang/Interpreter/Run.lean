import StatementLang.Interpreter.Error
import StatementLang.Interpreter.Event
import StatementLang.Interpreter.Sink
import StatementLang.Numeral

/-!
# Running a program

    program    → (statement ';')* end
    statement  → 'var' identifier | identifier '=' expression | 'print' expression
    expression → identifier | integer

Statements are executed as they are recognised, one token of lookahead at a time. A statement takes
effect before its semicolon is read and counts once the semicolon has been seen. The first error
ends the run; what was done before it stays done, and a later run goes on behind the last token
read.
-/

namespace StatementLang

/-- The state of an interpreter; `events` is newest first. -/
structure Machine (σ : Type) where
  cursor : Cursor
  symbols : SymbolTable
  sink : σ
  events : List Event
  statements : Nat

/-- A step succeeds with a result or fails; either way it leaves a machine. -/
inductive Outcome (σ α : Type) where
  | ok (result : α) (machine : Machine σ)
  | fail (error : RunError) (machine : Machine σ)

namespace Outcome

variable {σ α β : Type}

def machine : Outcome σ α → Machine σ
  | .ok _ m => m
  | .fail _ m => m

def andThen (x : Outcome σ α) (f : α → Machine σ → Outcome σ β) : Outcome σ β :=
  match x with
  | .ok a m => f a m
  | .fail e m => .fail e m

@[simp] theorem machine_ok (a : α) (m : Machine σ) : (Outcome.ok a m).machine = m := rfl

@[simp] theorem machine_fail (e : RunError) (m : Machine σ) :
    (Outcome.fail e m : Outcome σ α).machine = m := rfl

@[simp] theorem ok_andThen (a : α) (m : Machine σ) (f : α → Machine σ → Outcome σ β) :
    (Outcome.ok a m).andThen f = f a m := rfl

@[simp] theorem fail_andThen (e : RunError) (m : Machine σ) (f : α → Machine σ → Outcome σ β) :
    (Outcome.fail e m).andThen f = .fail e m := rfl

end Outcome

/-- The value of an expression, which is one token. -/
def evaluate (symbols : SymbolTable) (t : Token) : Except ProgramError Int :=
  match t.kind with
  | .ident =>
    match symbols.lookup t.literal with
    | .ok v => .ok v
    | .error e => .error ⟨.symbol e, t.pos⟩
  | .int =>
    match literalValue? t.literal with
    | some v => .ok v
    | none => .error ⟨.outOfRange t.literal, t.pos⟩
  | _ => .error (.unexpected .expression t)

namespace Machine

variable {σ : Type}

def start (src : Bytes) (symbols : SymbolTable) (sink : σ) : Machine σ :=
  ⟨.start src, symbols, sink, [], 0⟩

def log (m : Machine σ) : List Event := m.events.reverse

/-- The length of the text still to be read. -/
def left (m : Machine σ) : Nat := m.cursor.rest.length

def record (e : Event) (m : Machine σ) : Machine σ := { m with events := e :: m.events }

def complain (e : ProgramError) {α : Type} (m : Machine σ) : Outcome σ α := .fail (.program e) m

def read (m : Machine σ) : Outcome σ Token :=
  match m.cursor.next with
  | (.ok t, c) => .ok t { m with cursor := c }
  | (.error e, c) => { m with cursor := c }.complain (.ofLexError e)

def expression (m : Machine σ) : Outcome σ Int :=
  m.read.andThen fun t m =>
    match evaluate m.symbols t with
    | .ok v => .ok v m
    | .error e => m.complain e

/-- `var` has been read: declares the identifier behind it. -/
def declaration (m : Machine σ) : Outcome σ Unit :=
  m.read.andThen fun t m =>
    if t.kind = .ident then
      match m.symbols.declare t.literal with
      | .ok symbols => .ok () ({ m with symbols }.record (.declared t.literal t.pos))
      | .error e => m.complain ⟨.symbol e, t.pos⟩
    else m.complain (.unexpected .identifier t)

/-- `target` has been read: it must be declared before the rest of the assignment is looked at. -/
def assignment (target : Token) (m : Machine σ) : Outcome σ Unit :=
  match m.symbols.lookup target.literal with
  | .error e => m.complain ⟨.symbol e, target.pos⟩
  | .ok _ =>
    m.read.andThen fun t m =>
      if t.kind = .assign then
        m.expression.andThen fun v m =>
          .ok () ({ m with symbols := m.symbols.set target.literal v }.record
            (.assigned target.literal v target.pos))
      else m.complain (.unexpected .assignment t)

/-- `print` has been read at `pos`: hands the value behind it to the sink. -/
def printing (sink : Sink σ) (pos : Position) (m : Machine σ) : Outcome σ Unit :=
  m.expression.andThen fun v m =>
    match sink.emit m.sink v with
    | (s, none) => .ok () ({ m with sink := s }.record (.printed v pos))
    | (s, some reason) => .fail (.output reason) { m with sink := s }

/-- `t` has been read: executes the statement it starts. -/
def statement (sink : Sink σ) (t : Token) (m : Machine σ) : Outcome σ Unit :=
  match t.kind with
  | .var => m.declaration
  | .ident => m.assignment t
  | .print => m.printing sink t.pos
  | _ => m.complain (.unexpected .statement t)

/-- `t` has been read: executes its statement, requires the semicolon behind it, and pulls the
first token of the next statement. -/
def terminated (sink : Sink σ) (t : Token) (m : Machine σ) : Outcome σ Token :=
  (m.statement sink t).andThen fun _ m =>
    m.read.andThen fun s m =>
      if s.kind = .semicolon then { m with statements := m.statements + 1 }.read
      else m.complain (.unexpected .semicolon s)

end Machine

namespace Outcome

variable {σ α β : Type}

theorem left_andThen_le {x : Outcome σ α} {f : α → Machine σ → Outcome σ β} {n : Nat}
    (hx : x.machine.left ≤ n) (hf : ∀ a m, (f a m).machine.left ≤ m.left) :
    (x.andThen f).machine.left ≤ n := by
  cases x with
  | ok a m => exact Nat.le_trans (hf a m) hx
  | fail e m => exact hx

end Outcome

namespace Machine

variable {σ : Type}

open Outcome (left_andThen_le)

theorem left_read (m : Machine σ) : m.read.machine.left ≤ m.left := by
  have h := m.cursor.length_next
  simp only [read]
  split <;> (rename_i hc; rw [hc] at h; exact h)

theorem left_read_lt {m m' : Machine σ} {t : Token} (h : m.read = .ok t m')
    (hk : t.kind ≠ .eof) : m'.left < m.left := by
  simp only [read] at h
  split at h
  · rename_i c hc
    injection h with ht hm
    subst ht hm
    have := Cursor.length_next_lt (c := m.cursor) (by rw [hc]) hk
    rwa [hc] at this
  · cases h

theorem left_expression (m : Machine σ) : m.expression.machine.left ≤ m.left :=
  left_andThen_le m.left_read fun t m => by
    cases evaluate m.symbols t <;> exact Nat.le_refl _

theorem left_declaration (m : Machine σ) : m.declaration.machine.left ≤ m.left :=
  left_andThen_le m.left_read fun t m => by
    split
    · cases m.symbols.declare t.literal <;> exact Nat.le_refl _
    · exact Nat.le_refl _

theorem left_assignment (target : Token) (m : Machine σ) :
    (m.assignment target).machine.left ≤ m.left := by
  simp only [assignment]
  split
  · exact Nat.le_refl _
  · refine left_andThen_le m.left_read fun t m => ?_
    split
    · exact left_andThen_le m.left_expression fun v m => Nat.le_refl _
    · exact Nat.le_refl _

theorem left_printing (sink : Sink σ) (pos : Position) (m : Machine σ) :
    (m.printing sink pos).machine.left ≤ m.left :=
  left_andThen_le m.left_expression fun v m => by
    split <;> exact Nat.le_refl _

theorem left_statement (sink : Sink σ) (t : Token) (m : Machine σ) :
    (m.statement sink t).machine.left ≤ m.left := by
  simp only [statement]
  split
  · exact m.left_declaration
  · exact m.left_assignment t
  · exact m.left_printing sink _
  · exact Nat.le_refl _

/-- A completed statement has taken at least its semicolon. -/
theorem left_terminated_lt {sink : Sink σ} {t t' : Token} {m m' : Machine σ}
    (h : m.terminated sink t = .ok t' m') : m'.left < m.left := by
  have hs := m.left_statement sink t
  simp only [terminated] at h
  cases h1 : m.statement sink t with
  | fail e m1 => rw [h1] at h; cases h
  | ok u m1 =>
    rw [h1] at h hs
    simp only [Outcome.ok_andThen] at h
    cases h2 : m1.read with
    | fail e m2 => rw [h2] at h; cases h
    | ok s m2 =>
      rw [h2] at h
      simp only [Outcome.ok_andThen] at h
      split at h
      · rename_i hk
        have hlt := left_read_lt h2 (by rw [hk]; decide)
        have hle := left_read { m2 with statements := m2.statements + 1 }
        rw [h] at hle
        simp only [Outcome.machine_ok, left] at hle hs hlt ⊢
        omega
      · cases h

/-- `t` has been read: runs the rest of the program from the statement it starts. -/
def loop (sink : Sink σ) (t : Token) (m : Machine σ) : Outcome σ Unit :=
  if t.kind = .eof then .ok () (m.record (.finished m.statements m.symbols.size))
  else
    match _h : m.terminated sink t with
    | .ok t' m' => loop sink t' m'
    | .fail e m' => .fail e m'
termination_by m.left
decreasing_by exact left_terminated_lt _h

end Machine

structure Execution (σ : Type) where
  error : Option RunError
  machine : Machine σ

namespace Machine

variable {σ : Type}

/-- Runs the program in front of the cursor to its end or to the first error; the events are those
of this run. -/
def run (sink : Sink σ) (m : Machine σ) : Execution σ :=
  match { m with events := [] }.read.andThen (loop sink) with
  | .ok _ m' => ⟨none, m'⟩
  | .fail e m' => ⟨some e, m'⟩

/-- The executions of `n` runs in a row on one machine. -/
def runs (sink : Sink σ) : Nat → Machine σ → List (Execution σ)
  | 0, _ => []
  | n + 1, m => m.run sink :: runs sink n (m.run sink).machine

end Machine

/-- Runs a source text against a table. -/
def execute {σ : Type} (sink : Sink σ) (src : Bytes) (symbols : SymbolTable) (state : σ) :
    Execution σ := (Machine.start src symbols state).run sink

end StatementLang
