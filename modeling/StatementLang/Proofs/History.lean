import Mathlib.Data.Finset.Card
import StatementLang.Proofs.Store

/-!
# The table and its history

A client declares and looks up names, assigns through the cells that it has been handed, counts and
lists the names, and takes snapshots that it may consult at any later time. What it has asked and
been answered so far is its history, and each answer follows from the history alone: a name is
declared if a declaration of it has been answered with a cell, and its value is the last one that
was assigned to it since, or zero.
-/

namespace StatementLang

namespace SymbolTable

variable {t : SymbolTable} {x : Bytes}

@[simp] theorem mem_names : x ∈ t.names ↔ x ∈ t.store := by
  rw [mem_store]
  simp only [names, List.mem_map, get?_eq_some_iff]
  constructor
  · rintro ⟨c, hc, rfl⟩
    exact ⟨c.value, hc⟩
  · rintro ⟨v, hv⟩
    exact ⟨⟨x, v⟩, hv, rfl⟩

theorem pairwise_names (t : SymbolTable) : t.names.Pairwise (· < ·) :=
  List.pairwise_map.mpr t.increasing

theorem nodup_names (t : SymbolTable) : t.names.Nodup :=
  t.pairwise_names.imp fun h he => absurd (he ▸ h) (List.lt_irrefl _)

end SymbolTable

/-- What a client can ask. Cells and snapshots go by the order in which they were handed out. -/
inductive Request where
  | declare (x : Bytes)
  | lookup (x : Bytes)
  | assign (cell : Nat) (v : Int)
  | size
  | names
  | snapshot
  | consult (snapshot : Nat) (x : Bytes)
  deriving DecidableEq, Repr

/-- The answers: a cell, the refusal of a name, nothing if there is no such cell or snapshot, and
what the table tells of itself. -/
inductive Answer where
  | cell (c : Cell)
  | refused (e : SymbolError)
  | nothing
  | count (n : Nat)
  | names (xs : List Bytes)
  | values (s : Store)
  | value (v : Option Int)
  deriving DecidableEq

abbrev Exchange := Request × Answer

/-- All exchanges so far, oldest first. -/
abbrev History := List Exchange

namespace Exchange

/-- The name that a successful declaration has declared. -/
def declares? : Exchange → Option Bytes
  | (.declare x, .cell _) => some x
  | _ => none

/-- The value that was assigned to a name through one of its cells. -/
def assigns? (x : Bytes) : Exchange → Option Int
  | (.assign _ v, .cell c) => if c.name = x then some v else none
  | _ => none

/-- The name of the cell that was handed out. -/
def hands? : Exchange → Option Bytes
  | (.declare _, .cell c) => some c.name
  | (.lookup _, .cell c) => some c.name
  | _ => none

def takesSnapshot : Exchange → Bool
  | (.snapshot, _) => true
  | _ => false

/-- The exchange leaves no trace in the answers to come. -/
structure Quiet (e : Exchange) : Prop where
  declares : e.declares? = none
  assigns : ∀ x, e.assigns? x = none
  hands : e.hands? = none
  snapshot : e.takesSnapshot = false

end Exchange

namespace History

variable {past front : History} {e : Exchange} {x : Bytes} {v : Int} {i : Nat}

def declared (past : History) : List Bytes := past.filterMap Exchange.declares?

def handed (past : History) : List Bytes := past.filterMap Exchange.hands?

def snapshotsTaken (past : History) : Nat := past.countP Exchange.takesSnapshot

/-- The last value assigned to the name since its declaration, or zero. -/
def ValueIn (past : History) (x : Bytes) (v : Int) : Prop :=
  ∃ front e back, past = front ++ e :: back ∧ e.declares? = some x ∧
    v = (back.filterMap (Exchange.assigns? x)).getLast?.getD 0

/-- The `i`-th snapshot was taken when just `front` had happened. -/
def TakenAfter (past : History) (i : Nat) (front : History) : Prop :=
  ∃ e back, past = front ++ e :: back ∧ e.takesSnapshot ∧ snapshotsTaken front = i

@[simp] theorem handed_concat (past : History) (e : Exchange) :
    handed (past ++ [e]) = handed past ++ e.hands?.toList := by
  cases h : e.hands? <;> simp [handed, h]

theorem mem_declared_iff : x ∈ declared past ↔ ∃ v, ValueIn past x v := by
  simp only [declared, List.mem_filterMap]
  constructor
  · rintro ⟨e, he, hx⟩
    obtain ⟨front, back, rfl⟩ := List.append_of_mem he
    exact ⟨_, front, e, back, rfl, hx, rfl⟩
  · rintro ⟨v, front, e, back, rfl, hx, -⟩
    exact ⟨e, by simp, hx⟩

/-- A later exchange gives a name its first value or another one, or leaves it as it was. -/
theorem valueIn_concat_iff :
    ValueIn (past ++ [e]) x v ↔
      (e.declares? = some x ∧ v = 0) ∨ ∃ w, ValueIn past x w ∧ v = (e.assigns? x).getD w := by
  constructor
  · rintro ⟨front, d, back, hpast, hd, hv⟩
    rcases List.eq_nil_or_concat' back with rfl | ⟨back, last, rfl⟩
    · obtain ⟨-, rfl⟩ : past = front ∧ e = d := by simpa using hpast
      exact .inl ⟨hd, hv⟩
    · rw [← List.cons_append, ← List.append_assoc] at hpast
      obtain ⟨rfl, rfl⟩ : past = front ++ d :: back ∧ e = last := by
        simpa using List.append_inj' hpast rfl
      refine .inr ⟨_, ⟨front, d, back, rfl, hd, rfl⟩, ?_⟩
      rw [hv]
      cases h : e.assigns? x <;> simp [h]
  · rintro (⟨hd, hv⟩ | ⟨w, ⟨front, d, back, rfl, hd, rfl⟩, hv⟩)
    · exact ⟨past, e, [], rfl, hd, hv⟩
    · refine ⟨front, d, back ++ [e], by simp, hd, ?_⟩
      rw [hv]
      cases h : e.assigns? x <;> simp [h]

theorem TakenAfter.concat (h : TakenAfter past i front) (e : Exchange) :
    TakenAfter (past ++ [e]) i front := by
  obtain ⟨d, back, rfl, hd, hi⟩ := h
  exact ⟨d, back ++ [e], by simp, hd, hi⟩

theorem takenAfter_last (h : e.takesSnapshot) :
    TakenAfter (past ++ [e]) (snapshotsTaken past) past := ⟨e, [], rfl, h, rfl⟩

end History

/-- A client's table, the names of the cells it holds and the snapshots it has taken. -/
structure Client where
  table : SymbolTable
  cells : List Bytes
  snapshots : List Store

namespace Client

def fresh : Client := ⟨.empty, [], []⟩

def shown (x : Bytes) (c : Client) : Answer :=
  match c.table.cells.find? (fun d => d.name == x) with
  | some d => .cell d
  | none => .nothing

def handOut (x : Bytes) (c : Client) : Answer × Client :=
  (c.shown x, { c with cells := c.cells ++ [x] })

def serve (c : Client) : Request → Answer × Client
  | .declare x =>
    match c.table.declare x with
    | .ok table => { c with table }.handOut x
    | .error e => (.refused e, c)
  | .lookup x =>
    match c.table.lookup x with
    | .ok _ => c.handOut x
    | .error e => (.refused e, c)
  | .assign i v =>
    match c.cells[i]? with
    | some x => (shown x { c with table := c.table.set x v }, { c with table := c.table.set x v })
    | none => (.nothing, c)
  | .size => (.count c.table.size, c)
  | .names => (.names c.table.names, c)
  | .snapshot => (.values c.table.store, { c with snapshots := c.snapshots ++ [c.table.store] })
  | .consult i x =>
    match c.snapshots[i]? with
    | some s => (.value (s.lookup x), c)
    | none => (.nothing, c)

end Client

/-- The history of a new client that makes the requests in order, and the client after it. -/
def converse (requests : List Request) : History × Client :=
  requests.foldl (fun (past, c) r => (past ++ [(r, (c.serve r).1)], (c.serve r).2)) ([], .fresh)

theorem converse_concat (requests : List Request) (r : Request) :
    converse (requests ++ [r]) =
      ((converse requests).1 ++ [(r, ((converse requests).2.serve r).1)],
        ((converse requests).2.serve r).2) := by
  simp [converse]

/-- The answer to a request is the one that the history asks for. -/
def Answer.Fits (past : History) (a : Answer) : Request → Prop
  | .declare x => a = if x ∈ past.declared then .refused (.redefined x) else .cell ⟨x, 0⟩
  | .lookup x =>
    if x ∈ past.declared then ∃ v, a = .cell ⟨x, v⟩ ∧ ∀ w, past.ValueIn x w ↔ w = v
    else a = .refused (.undefined x)
  | .assign i v =>
    match past.handed[i]? with
    | some x => x ∈ past.declared ∧ a = .cell ⟨x, v⟩
    | none => a = .nothing
  | .size => a = .count past.declared.toFinset.card
  | .names => ∃ xs, a = .names xs ∧ xs.Pairwise (· < ·) ∧ ∀ x, x ∈ xs ↔ x ∈ past.declared
  | .snapshot => ∃ s, a = .values s ∧ (∀ x, x ∈ s ↔ x ∈ past.declared) ∧
      ∀ x v, s.lookup x = some v ↔ past.ValueIn x v
  | .consult i x =>
    (∃ front w, past.TakenAfter i front ∧ a = .value w ∧ ∀ v, w = some v ↔ front.ValueIn x v) ∨
      (past.snapshotsTaken ≤ i ∧ a = .nothing)

namespace Client

structure Follows (past : History) (c : Client) : Prop where
  value : ∀ x v, c.table.get? x = some v ↔ past.ValueIn x v
  cells : c.cells = past.handed
  live : ∀ x ∈ c.cells, x ∈ c.table.store
  taken : c.snapshots.length = past.snapshotsTaken
  recalls : ∀ i s, c.snapshots[i]? = some s →
    ∃ front, past.TakenAfter i front ∧ ∀ x v, s.lookup x = some v ↔ front.ValueIn x v

theorem follows_fresh : fresh.Follows [] where
  value := by
    intro x v
    constructor
    · intro h
      cases h
    · rintro ⟨front, e, back, h, -⟩
      simp at h
  cells := rfl
  live := by simp [fresh]
  taken := rfl
  recalls := by simp [fresh]

variable {past : History} {c : Client} {x : Bytes} {v : Int}

theorem shown_of_get? (h : c.table.get? x = some v) : c.shown x = .cell ⟨x, v⟩ := by
  obtain ⟨d, hd, rfl⟩ := Option.map_eq_some_iff.mp h
  obtain rfl : d.name = x := by simpa using List.find?_some hd
  simp only [shown, hd]

namespace Follows

theorem mem_iff (h : c.Follows past) : x ∈ c.table.store ↔ x ∈ past.declared := by
  rw [SymbolTable.mem_store, History.mem_declared_iff]
  simp only [h.value]

theorem value_unique (h : c.Follows past) (hx : c.table.get? x = some v) (w : Int) :
    past.ValueIn x w ↔ w = v := by
  rw [← h.value, hx, Option.some.injEq, eq_comm]

/-- Only a snapshot changes what can be recalled. -/
theorem advance (h : c.Follows past) {e : Exchange} {d : Client}
    (he : e.takesSnapshot = false) (hd : d.snapshots = c.snapshots)
    (value : ∀ x v, d.table.get? x = some v ↔ History.ValueIn (past ++ [e]) x v)
    (cells : d.cells = c.cells ++ e.hands?.toList) (live : ∀ x ∈ d.cells, x ∈ d.table.store) :
    d.Follows (past ++ [e]) where
  value := value
  cells := by rw [cells, History.handed_concat, h.cells]
  live := live
  taken := by
    rw [hd, h.taken]
    simp [History.snapshotsTaken, he]
  recalls := by
    intro i s hs
    obtain ⟨front, hfront, hlookup⟩ := h.recalls i s (hd ▸ hs)
    exact ⟨front, hfront.concat e, hlookup⟩

/-- A quiet exchange keeps everything as it was. -/
theorem quiet (h : c.Follows past) {e : Exchange} (he : e.Quiet) : c.Follows (past ++ [e]) := by
  refine h.advance he.snapshot rfl ?_ ?_ h.live
  · intro x v
    rw [h.value, History.valueIn_concat_iff, he.declares, he.assigns]
    simp
  · simp [he.hands]

end Follows

/-- The answer fits the history, the client follows it on, and a refusal changes nothing. -/
structure Accords (past : History) (c : Client) (r : Request) : Prop where
  fits : Answer.Fits past (c.serve r).1 r
  follows : (c.serve r).2.Follows (past ++ [(r, (c.serve r).1)])
  unchanged : ∀ e, (c.serve r).1 = .refused e → (c.serve r).2 = c

variable {r : Request} {a : Answer}

theorem Accords.of_quiet (h : c.Follows past) (hs : c.serve r = (a, c))
    (hq : Exchange.Quiet (r, a)) (hf : Answer.Fits past a r) : c.Accords past r where
  fits := by rw [hs]; exact hf
  follows := by rw [hs]; exact h.quiet hq
  unchanged := by
    intro e _
    rw [hs]

theorem Accords.of_cell {d : Client} {cell : Cell} (hs : c.serve r = (.cell cell, d))
    (hf : Answer.Fits past (.cell cell) r) (hd : d.Follows (past ++ [(r, .cell cell)])) :
    c.Accords past r where
  fits := by rw [hs]; exact hf
  follows := by rw [hs]; exact hd
  unchanged := by
    intro e he
    rw [hs] at he
    cases he

namespace Follows

theorem declare (h : c.Follows past) (x : Bytes) : c.Accords past (.declare x) := by
  by_cases hx : x ∈ c.table.store
  · have hs : c.serve (.declare x) = (.refused (.redefined x), c) := by
      simp only [serve, SymbolTable.declare_of_mem hx]
    refine .of_quiet h hs ⟨rfl, fun _ => rfl, rfl, rfl⟩ ?_
    rw [Answer.Fits, if_pos (h.mem_iff.mp hx)]
  · obtain ⟨table, hd, hstore⟩ := SymbolTable.declare_of_notMem hx
    have hvalue : ∀ y v, table.get? y = some v ↔
        (x = y ∧ v = 0) ∨ c.table.get? y = some v := by
      intro y v
      rw [← SymbolTable.lookup_store, hstore, ← SymbolTable.lookup_store]
      by_cases hy : y = x
      · subst hy
        have hnone := Finmap.lookup_eq_none.mpr hx
        simp [hnone, eq_comm]
      · simp [Finmap.lookup_insert_of_ne _ hy, Ne.symm hy]
    have hs : c.serve (.declare x) =
        (.cell ⟨x, 0⟩, { c with table, cells := c.cells ++ [x] }) := by
      have hshown : shown x { c with table } = .cell ⟨x, 0⟩ :=
        shown_of_get? ((hvalue x 0).mpr (.inl ⟨rfl, rfl⟩))
      simp only [serve, hd, handOut, hshown]
    refine .of_cell hs ?_ (h.advance rfl rfl ?_ rfl ?_)
    · rw [Answer.Fits, if_neg (mt h.mem_iff.mpr hx)]
    · intro y v
      rw [hvalue, h.value, History.valueIn_concat_iff]
      simp [Exchange.declares?, Exchange.assigns?]
    · intro y hy
      rw [hstore, Finmap.mem_insert]
      rcases List.mem_append.mp hy with hy | hy
      · exact .inr (h.live y hy)
      · exact .inl (List.mem_singleton.mp hy)

theorem lookup (h : c.Follows past) (x : Bytes) : c.Accords past (.lookup x) := by
  cases hx : c.table.get? x with
  | none =>
    have hlookup : c.table.lookup x = .error (.undefined x) := by rw [SymbolTable.lookup, hx]
    have hs : c.serve (.lookup x) = (.refused (.undefined x), c) := by simp only [serve, hlookup]
    have hmem : x ∉ past.declared := by
      rw [← h.mem_iff, SymbolTable.mem_store, hx]
      simp
    refine .of_quiet h hs ⟨rfl, fun _ => rfl, rfl, rfl⟩ ?_
    rw [Answer.Fits, if_neg hmem]
  | some v =>
    have hlookup : c.table.lookup x = .ok v := by rw [SymbolTable.lookup, hx]
    have hs : c.serve (.lookup x) = (.cell ⟨x, v⟩, { c with cells := c.cells ++ [x] }) := by
      simp only [serve, hlookup, handOut, shown_of_get? hx]
    have hmem : x ∈ c.table.store := SymbolTable.mem_store.mpr ⟨v, hx⟩
    refine .of_cell hs ?_ (h.advance rfl rfl ?_ rfl ?_)
    · rw [Answer.Fits, if_pos (h.mem_iff.mp hmem)]
      exact ⟨v, rfl, h.value_unique hx⟩
    · intro y w
      rw [h.value, History.valueIn_concat_iff]
      simp [Exchange.declares?, Exchange.assigns?]
    · intro y hy
      rcases List.mem_append.mp hy with hy | hy
      · exact h.live y hy
      · exact List.mem_singleton.mp hy ▸ hmem

theorem assign (h : c.Follows past) (i : Nat) (v : Int) : c.Accords past (.assign i v) := by
  cases hi : c.cells[i]? with
  | none =>
    have hs : c.serve (.assign i v) = (.nothing, c) := by simp only [serve, hi]
    refine .of_quiet h hs ⟨rfl, fun _ => rfl, rfl, rfl⟩ ?_
    rw [Answer.Fits, ← h.cells, hi]
  | some x =>
    have hmem : x ∈ c.table.store := h.live x (List.mem_of_getElem? hi)
    have hstore := SymbolTable.store_set hmem v
    have hvalue : (c.table.set x v).get? x = some v := by
      rw [← SymbolTable.lookup_store, hstore, Finmap.lookup_insert]
    have hs : c.serve (.assign i v) = (.cell ⟨x, v⟩, { c with table := c.table.set x v }) := by
      have hshown : shown x { c with table := c.table.set x v } = .cell ⟨x, v⟩ :=
        shown_of_get? hvalue
      simp only [serve, hi, hshown]
    refine .of_cell hs ?_ (h.advance rfl rfl ?_ (by simp [Exchange.hands?]) ?_)
    · rw [Answer.Fits, ← h.cells, hi]
      exact ⟨h.mem_iff.mp hmem, rfl⟩
    · intro y w
      rw [History.valueIn_concat_iff]
      by_cases hy : y = x
      · subst hy
        obtain ⟨old, hold⟩ := History.mem_declared_iff.mp (h.mem_iff.mp hmem)
        simp only [hvalue, Exchange.declares?, Exchange.assigns?, if_true, Option.getD_some]
        constructor
        · intro hw
          exact .inr ⟨old, hold, (Option.some.inj hw).symm⟩
        · rintro (⟨hd, -⟩ | ⟨_, -, rfl⟩)
          · cases hd
          · rfl
      · rw [← SymbolTable.lookup_store, hstore, Finmap.lookup_insert_of_ne _ hy,
          SymbolTable.lookup_store, h.value]
        simp [Exchange.declares?, Exchange.assigns?, Ne.symm hy]
    · intro y hy
      rw [hstore, Finmap.mem_insert]
      exact .inr (h.live y hy)

theorem size (h : c.Follows past) : c.Accords past .size := by
  refine .of_quiet h rfl ⟨rfl, fun _ => rfl, rfl, rfl⟩ ?_
  have hset : c.table.names.toFinset = past.declared.toFinset := by
    ext x
    rw [List.mem_toFinset, List.mem_toFinset, ← h.mem_iff, SymbolTable.mem_names]
  have hcard : c.table.names.toFinset.card = c.table.size := by
    rw [List.toFinset_card_of_nodup c.table.nodup_names, SymbolTable.names, List.length_map]
    rfl
  rw [Answer.Fits, ← hset, hcard]

theorem names (h : c.Follows past) : c.Accords past .names := by
  refine .of_quiet h rfl ⟨rfl, fun _ => rfl, rfl, rfl⟩ ?_
  refine ⟨c.table.names, rfl, c.table.pairwise_names, fun x => ?_⟩
  rw [SymbolTable.mem_names, h.mem_iff]

theorem snapshot (h : c.Follows past) : c.Accords past .snapshot := by
  have hlookup : ∀ x v, c.table.store.lookup x = some v ↔ past.ValueIn x v := by
    intro x v
    rw [SymbolTable.lookup_store, h.value]
  refine ⟨⟨c.table.store, rfl, fun x => h.mem_iff, hlookup⟩, ⟨?_, ?_, h.live, ?_, ?_⟩,
    fun _ he => by cases he⟩
  · intro x v
    rw [History.valueIn_concat_iff]
    simpa [serve, Exchange.declares?, Exchange.assigns?] using h.value x v
  · rw [History.handed_concat]
    simpa [serve, Exchange.hands?] using h.cells
  · simpa [serve, History.snapshotsTaken, Exchange.takesSnapshot] using h.taken
  · intro i s hs
    have hsnap : (c.snapshots ++ [c.table.store])[i]? = some s := hs
    rcases Nat.lt_or_ge i c.snapshots.length with hi | hi
    · rw [List.getElem?_append_left hi] at hsnap
      obtain ⟨front, hfront, hvalue⟩ := h.recalls i s hsnap
      exact ⟨front, hfront.concat _, hvalue⟩
    · rw [List.getElem?_append_right hi, List.getElem?_singleton] at hsnap
      split at hsnap
      · rename_i hlast
        obtain rfl : c.table.store = s := Option.some.inj hsnap
        have hi' : i = past.snapshotsTaken := by
          rw [← h.taken]
          omega
        exact ⟨past, hi' ▸ History.takenAfter_last rfl, hlookup⟩
      · cases hsnap

theorem consult (h : c.Follows past) (i : Nat) (x : Bytes) : c.Accords past (.consult i x) := by
  cases hi : c.snapshots[i]? with
  | none =>
    have hs : c.serve (.consult i x) = (.nothing, c) := by simp only [serve, hi]
    refine .of_quiet h hs ⟨rfl, fun _ => rfl, rfl, rfl⟩ (.inr ⟨?_, rfl⟩)
    rw [← h.taken]
    exact List.getElem?_eq_none_iff.mp hi
  | some s =>
    have hs : c.serve (.consult i x) = (.value (s.lookup x), c) := by simp only [serve, hi]
    obtain ⟨front, hfront, hlookup⟩ := h.recalls i s hi
    refine .of_quiet h hs ⟨rfl, fun _ => rfl, rfl, rfl⟩ ?_
    exact .inl ⟨front, s.lookup x, hfront, rfl, hlookup x⟩

/-- Every request is answered from the history. -/
theorem accords (h : c.Follows past) (r : Request) : c.Accords past r := by
  cases r with
  | declare x => exact h.declare x
  | lookup x => exact h.lookup x
  | assign i v => exact h.assign i v
  | size => exact h.size
  | names => exact h.names
  | snapshot => exact h.snapshot
  | consult i x => exact h.consult i x

end Follows

end Client

theorem follows_converse (requests : List Request) :
    (converse requests).2.Follows (converse requests).1 := by
  induction requests using List.reverseRecOn with
  | nil => exact Client.follows_fresh
  | append_singleton requests r ih =>
    rw [converse_concat]
    exact (ih.accords r).follows

@[simp] theorem map_fst_converse (requests : List Request) :
    (converse requests).1.map Prod.fst = requests := by
  induction requests using List.reverseRecOn with
  | nil => rfl
  | append_singleton requests r ih =>
    rw [converse_concat, List.map_append, ih]
    rfl

/-- After any requests to a new table, the answer to the next one is the one that the history of
these requests asks for: a name is refused or given, with its last value since its declaration,
according to whether its declaration has succeeded before; the count and the list are of the names
declared so far; and a snapshot holds the values of the time at which it was taken. A refusal
changes nothing. -/
theorem table_refines_history (requests : List Request) (next : Request) :
    let past := (converse requests).1
    let client := (converse requests).2
    past.map Prod.fst = requests ∧ Answer.Fits past (client.serve next).1 next ∧
      ∀ e, (client.serve next).1 = .refused e → (client.serve next).2 = client := by
  intro past client
  have h := (follows_converse requests).accords next
  exact ⟨map_fst_converse requests, h.fits, h.unchanged⟩

/-- A value that was assigned through the second cell of a name is the one that the name has, the
snapshot taken before it still says zero, and declaring the name again changes nothing. -/
theorem table_refines_history_shared :
    let a := utf8 "a"
    let requests : List Request := [.declare a, .lookup a, .snapshot, .assign 1 5]
    let past := (converse requests).1
    let client := (converse requests).2
    past.declared = [a] ∧ (client.serve (.lookup a)).1 = .cell ⟨a, 5⟩ ∧
    (∀ w, past.ValueIn a w ↔ w = 5) ∧
    (client.serve (.consult 0 a)).1 = .value (some 0) ∧
    Answer.Fits past (.value (some 0)) (.consult 0 a) ∧
    (client.serve (.declare a)).1 = .refused (.redefined a) ∧
    (client.serve (.declare a)).2 = client := by
  intro a requests past client
  have hdeclared : past.declared = [a] := by decide +kernel
  have hlookup : (client.serve (.lookup a)).1 = .cell ⟨a, 5⟩ := by decide +kernel
  have hconsult : (client.serve (.consult 0 a)).1 = .value (some 0) := by decide +kernel
  have hagain : (client.serve (.declare a)).1 = .refused (.redefined a) := by decide +kernel
  obtain ⟨-, hvalue, -⟩ := table_refines_history requests (.lookup a)
  obtain ⟨-, hold, -⟩ := table_refines_history requests (.consult 0 a)
  obtain ⟨-, -, hsame⟩ := table_refines_history requests (.declare a)
  have hmem : a ∈ past.declared := by simp [hdeclared]
  rw [Answer.Fits, if_pos hmem] at hvalue
  obtain ⟨v, hv, hunique⟩ := hvalue
  obtain rfl : 5 = v := by
    have hcell := hlookup.symm.trans hv
    simpa using hcell
  exact ⟨hdeclared, hlookup, hunique, hconsult, hconsult ▸ hold, hagain, hsame _ hagain⟩

end StatementLang
