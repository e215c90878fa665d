import StatementLang.Numeral
import StatementLang.Proofs.Lexing
import StatementLang.Proofs.Store

/-!
# Programs and their meaning

The syntax of the language as trees, the lexemes that spell a program, and a plain evaluator over
finite maps. The evaluator knows no tokens and no positions: it fails on a name declared twice, on
a name not declared and on a number that no variable can hold, and otherwise gives the final map
and the printed values in order.
-/

namespace StatementLang

inductive Expression where
  | name (x : Bytes)
  | number (digits : Bytes)
  deriving DecidableEq, Repr

inductive Statement where
  | declare (x : Bytes)
  | assign (x : Bytes) (e : Expression)
  | print (e : Expression)
  deriving DecidableEq, Repr

abbrev Program := List Statement

def Expression.lexeme : Expression → Lexeme
  | .name x => ⟨.ident, x⟩
  | .number digits => ⟨.int, digits⟩

def Statement.lexemes : Statement → List Lexeme
  | .declare x => [⟨.var, varWord⟩, ⟨.ident, x⟩]
  | .assign x e => [⟨.ident, x⟩, ⟨.assign, [61]⟩, e.lexeme]
  | .print e => [⟨.print, printWord⟩, e.lexeme]

/-- Each statement is followed by a semicolon. -/
def Program.lexemes (p : Program) : List Lexeme :=
  p.flatMap fun s => s.lexemes ++ [.semicolon]

/-- The spelling of a whole program ends with the end of input. -/
def Program.render (p : Program) : List Lexeme := p.lexemes ++ [.eof]

/-- A name must be declared, and a number must not be greater than a variable can hold. -/
def Expression.value? (store : Store) : Expression → Option Int
  | .name x => store.lookup x
  | .number digits => if decimalValue digits ≤ 2 ^ 63 - 1 then some (decimalValue digits) else none

def Statement.eval? (store : Store) : Statement → Option (Store × List Int)
  | .declare x => if x ∈ store then none else some (store.insert x 0, [])
  | .assign x e => if x ∈ store then (e.value? store).map fun v => (store.insert x v, []) else none
  | .print e => (e.value? store).map fun v => (store, [v])

def Program.eval? (store : Store) : Program → Option (Store × List Int)
  | [] => some (store, [])
  | s :: p => (s.eval? store).bind fun (store, values) =>
    (Program.eval? store p).map fun (final, more) => (final, values ++ more)

namespace Expression

@[simp] theorem lexeme_name (x : Bytes) : (name x).lexeme = ⟨.ident, x⟩ := rfl

@[simp] theorem lexeme_number (digits : Bytes) : (number digits).lexeme = ⟨.int, digits⟩ := rfl

@[simp] theorem value?_name (store : Store) (x : Bytes) :
    (name x).value? store = store.lookup x := rfl

theorem kind_lexeme (e : Expression) : e.lexeme.kind ≠ .eof ∧ e.lexeme.kind ≠ .semicolon := by
  cases e <;> simp

end Expression

namespace Statement

variable {store final : Store} {values : List Int} {x : Bytes} {e : Expression}

@[simp] theorem lexemes_declare (x : Bytes) :
    (declare x).lexemes = [⟨.var, varWord⟩, ⟨.ident, x⟩] := rfl

@[simp] theorem lexemes_assign (x : Bytes) (e : Expression) :
    (assign x e).lexemes = [⟨.ident, x⟩, ⟨.assign, [61]⟩, e.lexeme] := rfl

@[simp] theorem lexemes_print (e : Expression) :
    (print e).lexemes = [⟨.print, printWord⟩, e.lexeme] := rfl

@[simp] theorem eval?_declare (h : x ∉ store) :
    (declare x).eval? store = some (store.insert x 0, []) := if_neg h

@[simp] theorem eval?_assign (h : x ∈ store) (e : Expression) :
    (assign x e).eval? store = (e.value? store).map fun v => (store.insert x v, []) := if_pos h

@[simp] theorem eval?_print (store : Store) (e : Expression) :
    (print e).eval? store = (e.value? store).map fun v => (store, [v]) := rfl

theorem eval?_declare_eq_some_iff : (declare x).eval? store = some (final, values) ↔
    x ∉ store ∧ final = store.insert x 0 ∧ values = [] := by
  by_cases hx : x ∈ store <;> simp [eval?, hx, eq_comm]

theorem eval?_assign_eq_some_iff : (assign x e).eval? store = some (final, values) ↔
    x ∈ store ∧ ∃ v, e.value? store = some v ∧ final = store.insert x v ∧ values = [] := by
  by_cases hx : x ∈ store <;> simp [eval?, hx, eq_comm]

theorem eval?_print_eq_some_iff : (print e).eval? store = some (final, values) ↔
    ∃ v, e.value? store = some v ∧ final = store ∧ values = [v] := by
  simp [eq_comm]

theorem lexemes_ne_nil (s : Statement) : s.lexemes ≠ [] := by
  cases s <;> simp

/-- No statement contains the end of input or a semicolon. -/
theorem kind_of_mem {s : Statement} {l : Lexeme} (h : l ∈ s.lexemes) :
    l.kind ≠ .eof ∧ l.kind ≠ .semicolon := by
  have hkind := Expression.kind_lexeme
  cases s with
  | declare x =>
    simp only [lexemes_declare, List.mem_cons, List.not_mem_nil, or_false] at h
    rcases h with rfl | rfl <;> simp
  | assign x e =>
    simp only [lexemes_assign, List.mem_cons, List.not_mem_nil, or_false] at h
    rcases h with rfl | rfl | rfl <;> simp [hkind]
  | print e =>
    simp only [lexemes_print, List.mem_cons, List.not_mem_nil, or_false] at h
    rcases h with rfl | rfl <;> simp [hkind]

end Statement

namespace Program

@[simp] theorem lexemes_nil : Program.lexemes [] = [] := rfl

@[simp] theorem lexemes_cons (s : Statement) (p : Program) :
    Program.lexemes (s :: p) = s.lexemes ++ (.semicolon :: Program.lexemes p) := by
  simp [Program.lexemes]

@[simp] theorem lexemes_append (p q : Program) :
    Program.lexemes (p ++ q) = Program.lexemes p ++ Program.lexemes q := by
  simp [Program.lexemes]

@[simp] theorem render_cons (s : Statement) (p : Program) :
    Program.render (s :: p) = s.lexemes ++ (.semicolon :: Program.render p) := by
  simp [Program.render]

@[simp] theorem eval?_nil (store : Store) : Program.eval? store [] = some (store, []) := rfl

@[simp] theorem eval?_cons (store : Store) (s : Statement) (p : Program) :
    Program.eval? store (s :: p) = (s.eval? store).bind fun (store, values) =>
      (Program.eval? store p).map fun (final, more) => (final, values ++ more) := rfl

theorem eval?_cons_eq_some_iff {store final : Store} {s : Statement} {p : Program}
    {values : List Int} :
    Program.eval? store (s :: p) = some (final, values) ↔
      ∃ mid first more, s.eval? store = some (mid, first) ∧
        Program.eval? mid p = some (final, more) ∧ values = first ++ more := by
  simp only [eval?_cons, Option.bind_eq_some_iff, Option.map_eq_some_iff, Prod.exists,
    Prod.mk.injEq]
  constructor
  · rintro ⟨mid, first, hs, final', more, hp, rfl, rfl⟩
    exact ⟨mid, first, more, hs, hp, rfl⟩
  · rintro ⟨mid, first, more, hs, hp, rfl⟩
    exact ⟨mid, first, hs, final, more, hp, rfl, rfl⟩

/-- A program can be evaluated in two parts. -/
theorem eval?_append_eq_some_iff {store final : Store} {p q : Program} {values : List Int} :
    Program.eval? store (p ++ q) = some (final, values) ↔
      ∃ mid first more, Program.eval? store p = some (mid, first) ∧
        Program.eval? mid q = some (final, more) ∧ values = first ++ more := by
  induction p generalizing store values with
  | nil => simp
  | cons s p ih =>
    simp only [List.cons_append, eval?_cons_eq_some_iff, ih]
    constructor
    · rintro ⟨mid, first, -, hs, ⟨mid', second, third, hp, hq, rfl⟩, rfl⟩
      exact ⟨mid', first ++ second, third, ⟨mid, first, second, hs, hp, rfl⟩, hq, by simp⟩
    · rintro ⟨mid', -, third, ⟨mid, first, second, hs, hp, rfl⟩, hq, rfl⟩
      exact ⟨mid, first, second ++ third, hs, ⟨mid', second, third, hp, hq, rfl⟩, by simp⟩

theorem eq_nil_of_lexemes {p : Program} (h : p.lexemes = []) : p = [] := by
  cases p with
  | nil => rfl
  | cons s p => simp at h

/-- A program ends with a semicolon. -/
theorem eq_semicolon_of_last {p : Program} {ls : List Lexeme} {l : Lexeme}
    (h : p.lexemes = ls ++ [l]) : l = .semicolon := by
  rcases List.eq_nil_or_concat p with rfl | ⟨q, s, rfl⟩
  · simp at h
  · have hlast := congrArg List.getLast? h
    simpa using hlast.symm

/-- A program can be cut behind every semicolon. -/
theorem exists_append_of_semicolon {p : Program} {ls ms : List Lexeme}
    (h : p.lexemes = ls ++ .semicolon :: ms) :
    ∃ q r : Program, p = q ++ r ∧ q.lexemes = ls ++ [.semicolon] ∧ r.lexemes = ms := by
  induction p generalizing ls with
  | nil => simp at h
  | cons s p ih =>
    rw [lexemes_cons] at h
    rcases append_eq_append_cons h with ⟨more, hs, -⟩ | ⟨ls', rfl, hrest⟩
    · have hk := (Statement.kind_of_mem (s := s) (l := .semicolon) (by simp [hs])).2
      exact absurd rfl hk
    · cases ls' with
      | nil =>
        obtain rfl : Program.lexemes p = ms := by simpa using hrest
        exact ⟨[s], p, rfl, by simp, rfl⟩
      | cons l ls' =>
        obtain ⟨rfl, hp⟩ : .semicolon = l ∧ Program.lexemes p = ls' ++ .semicolon :: ms := by
          simpa using hrest
        obtain ⟨q, r, rfl, hq, hr⟩ := ih hp
        exact ⟨s :: q, r, rfl, by simp [hq], hr⟩

end Program

end StatementLang
