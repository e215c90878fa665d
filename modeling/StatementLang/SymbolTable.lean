import StatementLang.Bytes

/-!
# The symbol table

A table holds the declared variables with their values, ordered by name. Declaring gives a new
variable the value zero; a name is declared at most once and is never removed.
-/

namespace StatementLang

structure Cell where
  name : Bytes
  value : Int
  deriving DecidableEq, Repr, Inhabited

inductive SymbolError where
  | redefined (name : Bytes)
  | undefined (name : Bytes)
  deriving DecidableEq, Repr, Inhabited

def SymbolError.message : SymbolError → Bytes
  | .redefined name => utf8 "redefined variable: " ++ name
  | .undefined name => utf8 "undefined variable: " ++ name

/-- Strictly increasing names. -/
def Increasing (cells : List Cell) : Prop := cells.Pairwise (fun a b => a.name < b.name)

/-- The variables in increasing order of their names' bytes. -/
structure SymbolTable where
  cells : List Cell
  increasing : Increasing cells

namespace SymbolTable

def empty : SymbolTable := ⟨[], .nil⟩

instance : Inhabited SymbolTable := ⟨empty⟩

@[ext] theorem ext {s t : SymbolTable} (h : s.cells = t.cells) : s = t := by
  cases s; cases t; simp_all

def size (t : SymbolTable) : Nat := t.cells.length

def names (t : SymbolTable) : List Bytes := t.cells.map (·.name)

def get? (t : SymbolTable) (name : Bytes) : Option Int :=
  (t.cells.find? (fun c => c.name == name)).map (·.value)

def contains (t : SymbolTable) (name : Bytes) : Bool := t.cells.any (fun c => c.name == name)

/-- Puts a cell before the first one with a greater name. -/
def insertCell (c : Cell) : List Cell → List Cell
  | [] => [c]
  | d :: ds => if c.name < d.name then c :: d :: ds else d :: insertCell c ds

@[simp] theorem mem_insertCell {c x : Cell} {cells : List Cell} :
    x ∈ insertCell c cells ↔ x = c ∨ x ∈ cells := by
  induction cells with
  | nil => simp [insertCell]
  | cons d ds ih =>
    simp only [insertCell]
    split
    · simp
    · simp only [List.mem_cons, ih]
      constructor
      · rintro (h | h | h) <;> simp [h]
      · rintro (h | h | h) <;> simp [h]

theorem increasing_insertCell {c : Cell} {cells : List Cell} (h : Increasing cells)
    (hc : ∀ d ∈ cells, d.name ≠ c.name) : Increasing (insertCell c cells) := by
  induction cells with
  | nil => simp [insertCell, Increasing]
  | cons d ds ih =>
    have hd := List.pairwise_cons.mp h
    simp only [insertCell]
    split
    · rename_i hlt
      refine List.pairwise_cons.mpr ⟨?_, h⟩
      intro x hx
      rcases List.mem_cons.mp hx with rfl | hx
      · exact hlt
      · exact List.lt_trans hlt (hd.1 x hx)
    · rename_i hge
      refine List.pairwise_cons.mpr ⟨?_, ih hd.2 (fun x hx => hc x (List.mem_cons_of_mem _ hx))⟩
      intro x hx
      rcases mem_insertCell.mp hx with rfl | hx
      · have hne := hc d List.mem_cons_self
        have hle := List.not_lt.mp hge
        rcases List.le_iff_lt_or_eq.mp hle with h' | h'
        · exact h'
        · exact absurd h' hne
      · exact hd.1 x hx

/-- Declares a new variable with the value zero. -/
def declare (t : SymbolTable) (name : Bytes) : Except SymbolError SymbolTable :=
  if h : t.contains name then .error (.redefined name)
  else .ok ⟨insertCell ⟨name, 0⟩ t.cells, increasing_insertCell t.increasing (by
    intro d hd he
    exact h (List.any_eq_true.mpr ⟨d, hd, by simp [he]⟩))⟩

def lookup (t : SymbolTable) (name : Bytes) : Except SymbolError Int :=
  match t.get? name with
  | some v => .ok v
  | none => .error (.undefined name)

/-- Gives a variable a value; a name that is not declared leaves the table as it is. -/
def set (t : SymbolTable) (name : Bytes) (value : Int) : SymbolTable :=
  ⟨t.cells.map (fun c => if c.name == name then ⟨c.name, value⟩ else c), by
    refine List.pairwise_map.mpr (t.increasing.imp ?_)
    intro a b h
    have key : ∀ c : Cell, (if c.name == name then (⟨c.name, value⟩ : Cell) else c).name = c.name := by
      intro c; split <;> rfl
    rw [key, key]; exact h⟩

end SymbolTable

end StatementLang
