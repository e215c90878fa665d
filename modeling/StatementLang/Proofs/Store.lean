import Mathlib.Data.Finmap
import Mathlib.Data.List.Sort
import StatementLang.SymbolTable

/-!
# The table as a finite map

The ordered cells of a table stand for a finite map from names to values. Look-up reads the map,
declaring inserts a new name with the value zero, setting replaces the value of a name that is
there, and two tables with the same map are the same table.
-/

namespace StatementLang

/-- A finite map from names to values. -/
abbrev Store := Finmap (fun _ : Bytes => Int)

namespace SymbolTable

/-- The map that a table stands for. -/
def store (t : SymbolTable) : Store :=
  (t.cells.map fun c => (⟨c.name, c.value⟩ : Sigma fun _ : Bytes => Int)).toFinmap

variable {t u : SymbolTable} {x y : Bytes} {v : Int}

theorem eq_of_name_eq {cells : List Cell} (h : Increasing cells) {c d : Cell} (hc : c ∈ cells)
    (hd : d ∈ cells) (hn : c.name = d.name) : c = d := by
  induction h with
  | nil => cases hc
  | @cons a cells ha _ ih =>
    rcases List.mem_cons.mp hc with rfl | hc' <;> rcases List.mem_cons.mp hd with rfl | hd'
    · rfl
    · exact absurd (ha d hd') (by rw [hn]; exact List.lt_irrefl _)
    · exact absurd (ha c hc') (by rw [hn]; exact List.lt_irrefl _)
    · exact ih hc' hd'

/-- A name has the value that its one cell holds. -/
theorem get?_eq_some_iff : t.get? x = some v ↔ ⟨x, v⟩ ∈ t.cells := by
  simp only [get?, Option.map_eq_some_iff]
  constructor
  · rintro ⟨c, hc, rfl⟩
    have hx := List.find?_some hc
    have hm := List.mem_of_find?_eq_some hc
    rw [← beq_iff_eq.mp hx]
    exact hm
  · intro hm
    have hsome : (t.cells.find? (fun c => c.name == x)).isSome :=
      List.find?_isSome.mpr ⟨⟨x, v⟩, hm, beq_self_eq_true x⟩
    obtain ⟨c, hc⟩ := Option.isSome_iff_exists.mp hsome
    refine ⟨c, hc, ?_⟩
    have hx : c.name = x := by simpa using List.find?_some hc
    rw [eq_of_name_eq t.increasing (List.mem_of_find?_eq_some hc) hm hx]

theorem dlookup_cells (cells : List Cell) (x : Bytes) :
    (cells.map fun c => (⟨c.name, c.value⟩ : Sigma fun _ : Bytes => Int)).dlookup x =
      (cells.find? (fun c => c.name == x)).map (·.value) := by
  induction cells with
  | nil => rfl
  | cons c cells ih =>
    by_cases h : c.name = x
    · subst h
      simp
    · rw [List.map_cons, List.dlookup_cons_ne _ _ (Ne.symm h), ih]
      simp [h]

@[simp] theorem lookup_store (t : SymbolTable) (x : Bytes) : t.store.lookup x = t.get? x := by
  rw [store, Finmap.dlookup_list_toFinmap, dlookup_cells, get?]

theorem mem_store : x ∈ t.store ↔ ∃ v, t.get? x = some v := by
  rw [Finmap.mem_iff]
  simp

/-- Equal maps have equal cells, in the one order that names allow. -/
theorem store_injective (h : t.store = u.store) : t = u := by
  have hmem : ∀ c : Cell, c ∈ t.cells ↔ c ∈ u.cells := by
    intro c
    rw [← get?_eq_some_iff, ← get?_eq_some_iff, ← lookup_store, ← lookup_store, h]
  have : Std.Irrefl (fun a b : Cell => a.name < b.name) := ⟨fun a => List.lt_irrefl a.name⟩
  have : Std.Antisymm (fun a b : Cell => a.name < b.name) :=
    ⟨fun a b hab hba => absurd (List.lt_trans hab hba) (List.lt_irrefl a.name)⟩
  exact SymbolTable.ext (t.increasing.eq_of_mem_iff u.increasing hmem)

@[simp] theorem store_empty : SymbolTable.empty.store = ∅ := rfl

@[simp] theorem contains_iff : t.contains x ↔ x ∈ t.store := by
  rw [mem_store]
  simp only [get?_eq_some_iff, contains, List.any_eq_true, beq_iff_eq]
  constructor
  · rintro ⟨c, hc, rfl⟩
    exact ⟨c.value, hc⟩
  · rintro ⟨v, hv⟩
    exact ⟨⟨x, v⟩, hv, rfl⟩

/-- A name that is there cannot be declared again. -/
theorem declare_of_mem (h : x ∈ t.store) : t.declare x = .error (.redefined x) := by
  simp [declare, contains_iff.mpr h]

theorem declare_of_notMem (h : x ∉ t.store) :
    ∃ u, t.declare x = .ok u ∧ u.store = t.store.insert x 0 := by
  have hc : ¬ t.contains x := fun hc => h (contains_iff.mp hc)
  refine ⟨_, dif_neg hc, ?_⟩
  apply Finmap.ext_lookup
  intro y
  apply Option.ext
  intro v
  rw [lookup_store, get?_eq_some_iff, mem_insertCell]
  by_cases hy : y = x
  · subst hy
    rw [Finmap.lookup_insert]
    have hn : ⟨y, v⟩ ∉ t.cells := fun hm => h (mem_store.mpr ⟨v, get?_eq_some_iff.mpr hm⟩)
    simp [hn, eq_comm]
  · rw [Finmap.lookup_insert_of_ne _ hy, lookup_store, get?_eq_some_iff]
    simp [hy]

/-- A declaration that succeeds is of a new name. -/
theorem store_of_declare (h : t.declare x = .ok u) :
    x ∉ t.store ∧ u.store = t.store.insert x 0 := by
  have hnew : x ∉ t.store := by
    intro hmem
    rw [declare_of_mem hmem] at h
    cases h
  obtain ⟨v, hv, hstore⟩ := declare_of_notMem hnew
  rw [h] at hv
  injection hv with hv
  exact ⟨hnew, hv ▸ hstore⟩

@[simp] theorem lookup_eq_ok_iff : t.lookup x = .ok v ↔ t.store.lookup x = some v := by
  rw [lookup_store, lookup]
  cases t.get? x <;> simp

/-- Setting a name that is there replaces its value. -/
theorem store_set (h : x ∈ t.store) (v : Int) : (t.set x v).store = t.store.insert x v := by
  apply Finmap.ext_lookup
  intro y
  apply Option.ext
  intro w
  rw [lookup_store, get?_eq_some_iff]
  simp only [set, List.mem_map]
  by_cases hy : y = x
  · subst hy
    obtain ⟨old, hold⟩ := mem_store.mp h
    rw [get?_eq_some_iff] at hold
    rw [Finmap.lookup_insert, Option.some.injEq]
    constructor
    · rintro ⟨c, -, hc⟩
      split at hc
      · exact congrArg Cell.value hc
      · rename_i hn
        subst hc
        exact absurd (beq_self_eq_true y) hn
    · rintro rfl
      exact ⟨⟨y, old⟩, hold, by simp⟩
  · rw [Finmap.lookup_insert_of_ne _ hy, lookup_store, get?_eq_some_iff]
    constructor
    · rintro ⟨c, hc, he⟩
      split at he
      · rename_i hn
        exact absurd ((congrArg Cell.name he).symm.trans (beq_iff_eq.mp hn)) hy
      · rw [← he]
        exact hc
    · intro hm
      exact ⟨⟨y, w⟩, hm, by simp [hy]⟩

end SymbolTable

end StatementLang
