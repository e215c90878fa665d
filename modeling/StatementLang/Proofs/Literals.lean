import StatementLang.Proofs.Completion
import StatementLang.Proofs.Verdicts

/-!
# Integer literals

A literal may be as long as it likes. If a variable can hold the number it denotes, the number is
printed as the literal without its leading zeros, through however many variables it has been copied
before. If not, the run fails at the literal and has assigned and printed nothing.
-/

namespace StatementLang

/-- The digits from the first one on that is not zero; of zeros alone one is left. -/
def withoutZeros (digits : Bytes) : Bytes :=
  match digits.dropWhile (· == 48) with
  | [] => [48]
  | b :: rest => b :: rest

section Digits

variable {b : UInt8} {digits : Bytes}

theorem digitValue_lt (h : isDigit b) : digitValue b < 10 := by
  simp only [isDigit, Bool.and_eq_true, decide_eq_true_eq, UInt8.le_iff_toNat_le] at h
  have hlow : 48 ≤ b.toNat := h.1
  have hhigh : b.toNat ≤ 57 := h.2
  rw [digitValue]
  omega

theorem digitByte_digitValue (h : isDigit b) : digitByte (digitValue b) = b := by
  simp only [isDigit, Bool.and_eq_true, decide_eq_true_eq, UInt8.le_iff_toNat_le] at h
  have hlow : 48 ≤ b.toNat := h.1
  have hsum : 48 + digitValue b = b.toNat := by
    rw [digitValue]
    omega
  rw [digitByte, hsum, UInt8.ofNat_toNat]

@[simp] theorem decimalValue_concat (digits : Bytes) (b : UInt8) :
    decimalValue (digits ++ [b]) = decimalValue digits * 10 + digitValue b := by
  simp [decimalValue]

/-- Only zeros denote zero. -/
theorem decimalValue_eq_zero_iff (h : ∀ b ∈ digits, isDigit b) :
    decimalValue digits = 0 ↔ digits.dropWhile (· == 48) = [] := by
  induction digits using List.reverseRecOn with
  | nil => simp [decimalValue]
  | append_singleton front b ih =>
    have hb : digitByte (digitValue b) = b := digitByte_digitValue (h b (by simp))
    have hzero : digitValue b = 0 ↔ b = 48 := by
      constructor
      · intro hv
        rw [← hb, hv]
        rfl
      · rintro rfl
        rfl
    have hfront := ih fun c hc => h c (by simp [hc])
    rw [List.dropWhile_eq_nil_iff] at hfront ⊢
    rw [decimalValue_concat]
    simp only [List.mem_append, List.mem_singleton, beq_iff_eq] at hfront ⊢
    constructor
    · intro hv
      rintro c (hc | rfl)
      · exact hfront.mp (by omega) c hc
      · exact hzero.mp (by omega)
    · intro hall
      have hlast := hzero.mpr (hall b (.inr rfl))
      have hrest := hfront.mpr fun c hc => hall c (.inl hc)
      omega

/-- The numeral of the number that digits denote is what is left of them without leading zeros. -/
theorem decimal_decimalValue (h : ∀ b ∈ digits, isDigit b) :
    decimal (decimalValue digits) = withoutZeros digits := by
  induction digits using List.reverseRecOn with
  | nil =>
    have hzero : decimalValue [] = 0 := rfl
    rw [hzero, decimal_small (by omega)]
    rfl
  | append_singleton front b ih =>
    have hfront : ∀ c ∈ front, isDigit c := fun c hc => h c (by simp [hc])
    have hb : isDigit b := h b (by simp)
    have hlt := digitValue_lt hb
    rw [decimalValue_concat]
    by_cases hzero : decimalValue front = 0
    · have hdrop : (front ++ [b]).dropWhile (· == 48) = [b].dropWhile (· == 48) := by
        rw [List.dropWhile_append, (decimalValue_eq_zero_iff hfront).mp hzero]
        simp
      rw [hzero, Nat.zero_mul, Nat.zero_add, decimal_small hlt, digitByte_digitValue hb,
        withoutZeros, hdrop]
      by_cases h48 : b = 48 <;> simp [h48]
    · have hne := mt (decimalValue_eq_zero_iff hfront).mpr hzero
      obtain ⟨c, rest, hc⟩ := List.exists_cons_of_ne_nil hne
      have hdrop : (front ++ [b]).dropWhile (· == 48) = c :: (rest ++ [b]) := by
        rw [List.dropWhile_append, hc]
        simp
      have hdiv : (decimalValue front * 10 + digitValue b) / 10 = decimalValue front := by omega
      have hmod : (decimalValue front * 10 + digitValue b) % 10 = digitValue b := by omega
      rw [decimal_large (by omega), hdiv, hmod, ih hfront, digitByte_digitValue hb, withoutZeros,
        withoutZeros, hc, hdrop]
      rfl

end Digits

abbrev IsName (x : Bytes) : Prop := Lexeme.WellFormed ⟨.ident, x⟩

theorem isName_singleton {b : UInt8} (h : isLower b) : IsName [b] := by
  refine .ident (by simp) (by simpa using h) ?_ ?_
  · rintro ⟨rest, h⟩
    simp [varWord] at h
  · rintro ⟨rest, h⟩
    simp [printWord] at h

def introText : List Bytes → Bytes
  | [] => []
  | x :: xs => utf8 "var " ++ x ++ utf8 "; " ++ introText xs

/-- The text that gives a value to the first name, the value of each name to the next one, and
prints the value of the last; without names it prints the value itself. -/
def copyText (value : Bytes) : List Bytes → Bytes
  | [] => utf8 "print " ++ value ++ utf8 ";"
  | x :: xs => x ++ utf8 " = " ++ value ++ utf8 "; " ++ copyText x xs

def copying (e : Expression) : List Bytes → Program
  | [] => [.print e]
  | x :: xs => .assign x e :: copying (.name x) xs

@[simp] theorem copying_nil (e : Expression) : copying e [] = [.print e] := rfl

@[simp] theorem copying_cons (e : Expression) (x : Bytes) (xs : List Bytes) :
    copying e (x :: xs) = .assign x e :: copying (.name x) xs := rfl

section Spelling

variable {x : Bytes} {xs : List Bytes} {e : Expression}

theorem utf8_stop : utf8 "; " = [59] ++ [space] := by with_unfolding_all decide

theorem Lexes.intro (h : IsName x) :
    Lexes (utf8 "var " ++ x ++ utf8 "; ") (Program.lexemes [.declare x]) := by
  have hend : Lexeme.EndsBefore ⟨.var, varWord⟩ ([space] ++ (x ++ [59])) := by
    simp
  have hvar : utf8 "var " = varWord ++ [space] := by with_unfolding_all decide
  have htext : utf8 "var " ++ x ++ utf8 "; " = varWord ++ ([space] ++ (x ++ [59])) ++ [space] := by
    simp [hvar, utf8_stop]
  rw [htext, Lexes.append_blank_iff blank_space]
  exact .lexeme blank_nil .var hend (.closing blank_space h)

theorem Lexes.printed (h : e.lexeme.WellFormed) :
    Lexes (utf8 "print " ++ e.lexeme.literal ++ utf8 ";") (Program.lexemes [.print e]) := by
  have hend : Lexeme.EndsBefore ⟨.print, printWord⟩ ([space] ++ (e.lexeme.literal ++ [59])) := by
    simp
  have hprint : utf8 "print " = printWord ++ [space] := by with_unfolding_all decide
  have hstop : utf8 ";" = [59] := by with_unfolding_all decide
  have htext : utf8 "print " ++ e.lexeme.literal ++ utf8 ";" =
      printWord ++ ([space] ++ (e.lexeme.literal ++ [59])) := by
    simp [hprint, hstop]
  rw [htext]
  exact .lexeme blank_nil .print hend (.closing blank_space h)

theorem Lexes.assigned (hx : IsName x) (h : e.lexeme.WellFormed) :
    Lexes (x ++ utf8 " = " ++ e.lexeme.literal ++ utf8 "; ") (Program.lexemes [.assign x e]) := by
  have hassign : utf8 " = " = [space] ++ ([61] ++ [space]) := by with_unfolding_all decide
  have htext : x ++ utf8 " = " ++ e.lexeme.literal ++ utf8 "; " =
      x ++ ([space] ++ ([61] ++ ([space] ++ (e.lexeme.literal ++ [59])))) ++ [space] := by
    simp [hassign, utf8_stop]
  have hname : Lexeme.EndsBefore ⟨.ident, x⟩
      ([space] ++ ([61] ++ ([space] ++ (e.lexeme.literal ++ [59])))) := by
    simp [space, isLower]
  have hend : Lexeme.EndsBefore ⟨.assign, [61]⟩ ([space] ++ (e.lexeme.literal ++ [59])) := by
    simp
  rw [htext, Lexes.append_blank_iff blank_space]
  exact .lexeme blank_nil hx hname (.lexeme blank_space .assign hend (.closing blank_space h))

/-- A blank ends what stands before it. -/
theorem Lexes.Seam.of_space {a b : Bytes} : Seam (a ++ utf8 "; ") b := by
  rw [utf8_stop, ← List.append_assoc]
  exact .of_last (by decide)

/-- Declarations can be put in front of any text. -/
theorem lexes_introText_append {text : Bytes} {ls : List Lexeme} (h : ∀ x ∈ xs, IsName x)
    (ht : Lexes text ls) :
    Lexes (introText xs ++ text) (Program.lexemes (xs.map .declare) ++ ls) := by
  induction xs with
  | nil => exact ht
  | cons x xs ih =>
    rw [List.forall_mem_cons] at h
    have hcons : Program.lexemes ((x :: xs).map .declare) ++ ls =
        Program.lexemes [.declare x] ++ (Program.lexemes (xs.map .declare) ++ ls) := by simp
    rw [hcons, introText, List.append_assoc]
    exact (Lexes.intro h.1).append (ih h.2) .of_space

theorem lexes_copyText (he : e.lexeme.WellFormed) (h : ∀ x ∈ xs, IsName x) :
    Lexes (copyText e.lexeme.literal xs) (copying e xs).lexemes := by
  induction xs generalizing e with
  | nil => exact .printed he
  | cons x xs ih =>
    rw [List.forall_mem_cons] at h
    have hcons : (copying e (x :: xs)).lexemes =
        Program.lexemes [.assign x e] ++ (copying (.name x) xs).lexemes := by simp
    have hrest : Lexes (copyText x xs) (copying (.name x) xs).lexemes :=
      ih (e := .name x) h.1 h.2
    rw [hcons, copyText]
    exact (Lexes.assigned h.1 he).append hrest .of_space

end Spelling

section Values

variable {store : Store} {new xs : List Bytes} {e : Expression} {v : Int}

/-- Declared names have the value zero, and all others keep theirs. -/
theorem eval?_intro (hnew : new.Nodup) (hfresh : ∀ x ∈ new, x ∉ store) :
    ∃ mid, Program.eval? store (new.map .declare) = some (mid, []) ∧
      ∀ y, mid.lookup y = if y ∈ new then some 0 else store.lookup y := by
  induction new generalizing store with
  | nil => exact ⟨store, rfl, by simp⟩
  | cons x new ih =>
    rw [List.nodup_cons] at hnew
    rw [List.forall_mem_cons] at hfresh
    have hmore : ∀ y ∈ new, y ∉ store.insert x 0 := by
      intro y hy hmem
      rcases Finmap.mem_insert.mp hmem with rfl | hmem
      · exact hnew.1 hy
      · exact hfresh.2 y hy hmem
    obtain ⟨mid, hmid, hlookup⟩ := ih hnew.2 hmore
    refine ⟨mid, ?_, fun y => ?_⟩
    · simp [hfresh.1, hmid]
    · rw [hlookup]
      by_cases hy : y = x
      · subst hy
        simp [hnew.1]
      · simp [hy, Finmap.lookup_insert_of_ne]

/-- Every name that a value is copied to ends with the value, and all others keep theirs. -/
theorem eval?_copying (hv : e.value? store = some v) (hx : ∀ x ∈ xs, x ∈ store) :
    ∃ final, (copying e xs).eval? store = some (final, [v]) ∧
      ∀ y, final.lookup y = if y ∈ xs then some v else store.lookup y := by
  induction xs generalizing store e with
  | nil => exact ⟨store, by simp [hv], by simp⟩
  | cons x xs ih =>
    rw [List.forall_mem_cons] at hx
    have hcopy : (Expression.name x).value? (store.insert x v) = some v := Finmap.lookup_insert _
    have hmore : ∀ y ∈ xs, y ∈ store.insert x v :=
      fun y hy => Finmap.mem_insert.mpr (.inr (hx.2 y hy))
    obtain ⟨final, hfinal, hlookup⟩ := ih hcopy hmore
    refine ⟨final, ?_, fun y => ?_⟩
    · simp [hx.1, hv, hfinal]
    · rw [hlookup]
      by_cases hy : y = x
      · subst hy
        simp
      · simp [hy, Finmap.lookup_insert_of_ne]

end Values

namespace Machine

variable {σ : Type} {sink : Sink σ} {m : Machine σ} {rest : List Lexeme} {digits : Bytes}

/-- A program in front of the machine is run as it is evaluated, and the run goes on behind it. -/
theorem proceed_of_front (hs : sink.Reliable) {p : Program} {final : Store} {values : List Int}
    (h : m.feed.lexemes = p.lexemes ++ rest)
    (he : p.eval? m.symbols.store = some (final, values)) :
    ∃ n : Machine σ, m.proceed sink = n.proceed sink ∧ n.feed.lexemes = rest ∧
      n.symbols.store = final ∧ n.sink = sink.deliver m.sink values := by
  induction p generalizing m values with
  | nil =>
    obtain ⟨rfl, rfl⟩ : m.symbols.store = final ∧ [] = values := by simpa using he
    exact ⟨m, rfl, h, rfl, rfl⟩
  | cons s p ih =>
    obtain ⟨mid, first, more, hsv, hpv, rfl⟩ := Program.eval?_cons_eq_some_iff.mp he
    rw [Program.lexemes_cons, List.append_assoc, List.cons_append] at h
    obtain ⟨k, hk, hlex, -, rfl, hsink, -⟩ := proceed_of_statement hs h hsv
    obtain ⟨n, hn, hrest, hstore, hsink'⟩ := ih hlex hpv
    refine ⟨n, hk.trans hn, hrest, hstore, ?_⟩
    rw [hsink', hsink, Sink.deliver_append]

theorem expression_of_overflow (h : m.feed.lexemes = ⟨.int, digits⟩ :: rest)
    (hv : 2 ^ 63 - 1 < decimalValue digits) :
    ∃ pos, m.expression = .fail (.program ⟨.outOfRange digits, pos⟩) m.behind := by
  obtain ⟨⟨⟨kind, literal⟩, pos⟩, hr, ht, -⟩ := read_of_lexemes h (by simp)
  obtain ⟨rfl, rfl⟩ : kind = .int ∧ literal = digits := by simpa using ht
  have hmax : maxValue = 2 ^ 63 - 1 := by decide
  have hnone : literalValue? literal = none := by
    rw [literalValue?_eq, if_neg (by omega)]
  refine ⟨pos, ?_⟩
  simp only [expression, hr, Outcome.ok_andThen, evaluate, hnone]
  rfl

/-- A number that no variable can hold stops the run where it is to be assigned or printed. -/
theorem proceed_of_overflow (sink : Sink σ) {xs : List Bytes}
    (h : m.feed.lexemes = (copying (.number digits) xs).lexemes ++ rest)
    (hx : ∀ x ∈ xs, x ∈ m.symbols.store) (hv : 2 ^ 63 - 1 < decimalValue digits) :
    ∃ pos n, m.proceed sink = .fail (.program ⟨.outOfRange digits, pos⟩) n ∧
      n.symbols = m.symbols ∧ n.sink = m.sink := by
  cases xs with
  | nil =>
    simp only [copying_nil, Program.lexemes_cons, Statement.lexemes_print, Expression.lexeme_number,
      List.cons_append] at h
    obtain ⟨t, hr, ht, hlex, -⟩ := read_of_lexemes h (by simp)
    have hk : t.kind = .print := by rw [ht]
    obtain ⟨pos, hfail⟩ := expression_of_overflow hlex hv
    refine ⟨pos, m.behind.behind, ?_, rfl, rfl⟩
    rw [proceed_eq, hr, Outcome.ok_andThen, if_neg (by rw [hk]; simp)]
    simp only [statement, hk, printing, hfail, Outcome.fail_andThen]
  | cons x xs =>
    simp only [copying_cons, Program.lexemes_cons, Statement.lexemes_assign,
      Expression.lexeme_number, List.cons_append] at h
    obtain ⟨t, hr, ht, hlex, -⟩ := read_of_lexemes h (by simp)
    obtain ⟨a, hra, ha, hlexa, -⟩ := read_of_lexemes hlex (by simp)
    have hk : t.kind = .ident := by rw [ht]
    have hka : a.kind = .assign := by rw [ha]
    have hl : t.literal = x := by rw [ht]
    obtain ⟨old, hold⟩ := Finmap.mem_iff.mp (hx x (by simp))
    have hfound : m.behind.symbols.lookup x = .ok old := SymbolTable.lookup_eq_ok_iff.mpr hold
    obtain ⟨pos, hfail⟩ := expression_of_overflow hlexa hv
    refine ⟨pos, m.behind.behind.behind, ?_, rfl, rfl⟩
    rw [proceed_eq, hr, Outcome.ok_andThen, if_neg (by rw [hk]; simp)]
    simp only [statement, hk, assignment, hl, hfound, hra, Outcome.ok_andThen, hka, if_true, hfail,
      Outcome.fail_andThen]

end Machine

/-- The source runs to its end, writes the text and leaves each name with its value. -/
structure Prints (symbols : SymbolTable) (src text : Bytes) (left : Bytes → Option Int) : Prop where
  error : (execute Sink.writer src symbols []).error = none
  written : Sink.written (execute Sink.writer src symbols []).machine.sink = text
  symbols : ∀ y, (execute Sink.writer src symbols []).machine.symbols.get? y = left y

/-- The source fails with a report of its class and reason that ends with the digits; nothing is
written, and each name is left with its value. -/
structure Overflows (symbols : SymbolTable) (src digits : Bytes) (left : Bytes → Option Int) :
    Prop where
  error : ∃ e, (execute Sink.writer src symbols []).error = some (.program e) ∧
    e.kind = .semantic ∧ e.cause.reason? = some .overflow ∧ digits <:+ e.message ∧
    digits <:+ e.text
  written : Sink.written (execute Sink.writer src symbols []).machine.sink = []
  symbols : ∀ y, (execute Sink.writer src symbols []).machine.symbols.get? y = left y

/-- The names that are to be declared are new, and those that are to be assigned are declared. -/
structure Copyable (symbols : SymbolTable) (new xs : List Bytes) : Prop where
  names : ∀ x ∈ new ++ xs, IsName x
  nodup : new.Nodup
  fresh : ∀ x ∈ new, symbols.get? x = none
  declared : ∀ x ∈ xs, x ∈ new ∨ symbols.get? x ≠ none

section Copies

variable {symbols : SymbolTable} {new xs : List Bytes} {digits : Bytes}

theorem Copyable.lexes (h : Copyable symbols new xs)
    (hd : Lexeme.WellFormed ⟨.int, digits⟩) :
    Lexes (introText new ++ copyText digits xs)
      (Program.lexemes (new.map .declare) ++ (copying (.number digits) xs).lexemes) := by
  have hcopy : Lexes (copyText digits xs) (copying (.number digits) xs).lexemes :=
    lexes_copyText (e := .number digits) hd fun x hx => h.names x (by simp [hx])
  exact lexes_introText_append (fun x hx => h.names x (by simp [hx])) hcopy

/-- Once the new names are declared, every name that is to be assigned is there. -/
theorem Copyable.exists_eval? (h : Copyable symbols new xs) :
    ∃ mid, Program.eval? symbols.store (new.map .declare) = some (mid, []) ∧
      (∀ y, mid.lookup y = if y ∈ new then some 0 else symbols.get? y) ∧ ∀ x ∈ xs, x ∈ mid := by
  have hfresh : ∀ x ∈ new, x ∉ symbols.store := by
    intro x hx hmem
    obtain ⟨v, hv⟩ := SymbolTable.mem_store.mp hmem
    rw [h.fresh x hx] at hv
    cases hv
  obtain ⟨mid, hmid, hlookup⟩ := eval?_intro h.nodup hfresh
  simp only [SymbolTable.lookup_store] at hlookup
  refine ⟨mid, hmid, hlookup, fun x hx => ?_⟩
  rw [← Finmap.lookup_isSome, hlookup, Option.isSome_iff_ne_none]
  by_cases hnew : x ∈ new
  · simp [hnew]
  · simpa [hnew] using h.declared x hx

/-- A number that fits is printed, and every name it was copied to holds it. -/
theorem Copyable.prints (h : Copyable symbols new xs) (hd : Lexeme.WellFormed ⟨.int, digits⟩)
    (hv : decimalValue digits ≤ 2 ^ 63 - 1) :
    Prints symbols (introText new ++ copyText digits xs) (line (withoutZeros digits)) fun y =>
      if y ∈ xs then some (decimalValue digits) else if y ∈ new then some 0
        else symbols.get? y := by
  obtain ⟨mid, hmid, hlookup, hin⟩ := h.exists_eval?
  have hvalue : (Expression.number digits).value? mid = some (decimalValue digits : Int) := by
    rw [Expression.value?, if_pos hv]
  obtain ⟨final, hfinal, hleft⟩ := eval?_copying hvalue hin
  have heval : Program.eval? symbols.store (new.map .declare ++ copying (.number digits) xs) =
      some (final, [(decimalValue digits : Int)]) :=
    Program.eval?_append_eq_some_iff.mpr ⟨mid, [], _, hmid, hfinal, rfl⟩
  have hlex := h.lexes hd
  rw [← Program.lexemes_append] at hlex
  obtain ⟨herr, hout, hstore⟩ := writes_of_program hlex heval
  refine ⟨herr, hout.trans ?_, fun y => ?_⟩
  · cases hd with
    | int _ hdigits => simp [printedText, decimal_decimalValue hdigits]
  · rw [← SymbolTable.lookup_store, hstore, hleft, hlookup]

/-- A number that does not fit stops the run behind the declarations. -/
theorem Copyable.overflows (h : Copyable symbols new xs)
    (hd : Lexeme.WellFormed ⟨.int, digits⟩) (hv : 2 ^ 63 - 1 < decimalValue digits) :
    Overflows symbols (introText new ++ copyText digits xs) digits fun y =>
      if y ∈ new then some 0 else symbols.get? y := by
  obtain ⟨mid, hmid, hlookup, hin⟩ := h.exists_eval?
  let start := Machine.start (introText new ++ copyText digits xs) symbols ([] : List Bytes)
  have hfeed : start.feed.lexemes = Program.lexemes (new.map .declare) ++
      ((copying (.number digits) xs).lexemes ++ [.eof]) := by
    rw [← List.append_assoc]
    exact (tokenize_lexemes_iff.mpr (h.lexes hd)).2
  obtain ⟨k, hk, hlex, rfl, hsink⟩ := Machine.proceed_of_front writer_reliable hfeed hmid
  obtain ⟨pos, n, hn, hsymbols, hsink'⟩ := Machine.proceed_of_overflow Sink.writer hlex hin hv
  have hrun : execute Sink.writer (introText new ++ copyText digits xs) symbols [] =
      ⟨some (.program ⟨.outOfRange digits, pos⟩), n⟩ := by
    rw [execute_eq, hk, hn]
  have hmessage : digits <:+ (ProgramError.mk (.outOfRange digits) pos).message :=
    List.suffix_append _ _
  refine ⟨⟨_, by rw [hrun], rfl, rfl, hmessage, ?_⟩, ?_, fun y => ?_⟩
  · exact hmessage.trans (List.suffix_append _ _)
  · rw [hrun]
    simp only [hsink', hsink, Sink.deliver_nil]
    rfl
  · rw [hrun]
    simp only [hsymbols, ← SymbolTable.lookup_store, hlookup]

theorem copyable_nil : Copyable symbols [] [] :=
  ⟨by simp, List.nodup_nil, by simp, by simp⟩

theorem copyable_single {x : Bytes} (hx : IsName x) (h : symbols.get? x = none) :
    Copyable symbols [x] [x] :=
  ⟨by simpa using hx, List.nodup_singleton x, by simpa using h, by simp⟩

end Copies

/-- Literals never wrap. A run of digits whose number a variable can hold is printed without its
leading zeros, directly, through a new variable, or through any chain of declared ones, which hold
the number afterwards. One whose number is greater makes the same programs fail: the report is
semantic, has overflow as its reason and ends with the digits as they stand; nothing is printed, and
no variable has another value than it was declared with or had before. -/
theorem literals_never_wrap (digits : Bytes) (hne : digits ≠ []) (hd : ∀ b ∈ digits, isDigit b)
    (symbols : SymbolTable) :
    let direct := utf8 "print " ++ digits ++ utf8 ";"
    let stored := fun x => utf8 "var " ++ x ++ utf8 "; " ++ x ++ utf8 " = " ++ digits ++
      utf8 "; print " ++ x ++ utf8 ";"
    let copied := fun new xs => introText new ++ copyText digits xs
    let value : Int := decimalValue digits
    (decimalValue digits ≤ 2 ^ 63 - 1 →
      Prints symbols direct (line (withoutZeros digits)) symbols.get? ∧
      (∀ x, IsName x → symbols.get? x = none →
        Prints symbols (stored x) (line (withoutZeros digits)) fun y =>
          if y = x then some value else symbols.get? y) ∧
      ∀ new xs, Copyable symbols new xs →
        Prints symbols (copied new xs) (line (withoutZeros digits)) fun y =>
          if y ∈ xs then some value else if y ∈ new then some 0 else symbols.get? y) ∧
    (2 ^ 63 - 1 < decimalValue digits →
      Overflows symbols direct digits symbols.get? ∧
      (∀ x, IsName x → symbols.get? x = none →
        Overflows symbols (stored x) digits fun y => if y = x then some 0 else symbols.get? y) ∧
      ∀ new xs, Copyable symbols new xs →
        Overflows symbols (copied new xs) digits fun y =>
          if y ∈ new then some 0 else symbols.get? y) := by
  intro direct stored copied value
  have hint : Lexeme.WellFormed ⟨.int, digits⟩ := .int hne hd
  have hdirect : copied [] [] = direct := rfl
  have hstored : ∀ x, copied [x] [x] = stored x := by
    intro x
    have hprint : utf8 "; print " = utf8 "; " ++ utf8 "print " := by with_unfolding_all decide
    simp [copied, stored, introText, copyText, hprint]
  refine ⟨fun hv => ⟨?_, fun x hx hnew => ?_, fun new xs h => h.prints hint hv⟩,
    fun hv => ⟨?_, fun x hx hnew => ?_, fun new xs h => h.overflows hint hv⟩⟩
  · rw [← hdirect]
    simpa using copyable_nil.prints hint hv
  · rw [← hstored]
    convert (copyable_single hx hnew).prints hint hv using 2 with y
    by_cases hy : y = x <;> simp [hy, value]
  · rw [← hdirect]
    simpa using copyable_nil.overflows hint hv
  · rw [← hstored]
    simpa using (copyable_single hx hnew).overflows hint hv

/-- The greatest number that fits, with zeros in front of it, goes back and forth between two names;
its successor does not come to the first. -/
theorem literals_never_wrap_greatest :
    let greatest := utf8 "0009223372036854775807"
    let successor := utf8 "9223372036854775808"
    let new := [utf8 "a", utf8 "b"]
    let chain := [utf8 "b", utf8 "a", utf8 "b"]
    (∀ b ∈ greatest, isDigit b) ∧ (∀ b ∈ successor, isDigit b) ∧
    introText new ++ copyText successor chain =
      utf8 "var a; var b; b = 9223372036854775808; a = b; b = a; print b;" ∧
    (Prints .empty (utf8 "print " ++ greatest ++ utf8 ";") (utf8 "9223372036854775807\n")
      SymbolTable.empty.get?) ∧
    (Prints .empty (introText new ++ copyText greatest chain) (utf8 "9223372036854775807\n")
      fun y => if y ∈ chain then some 9223372036854775807 else if y ∈ new then some 0
        else SymbolTable.empty.get? y) ∧
    Overflows .empty (introText new ++ copyText successor chain) successor
      fun y => if y ∈ new then some 0 else SymbolTable.empty.get? y := by
  intro greatest successor new chain
  have hg : ∀ b ∈ greatest, isDigit b := by decide +kernel
  have hs : ∀ b ∈ successor, isDigit b := by decide +kernel
  have hgreatest : decimalValue greatest = 9223372036854775807 := by decide +kernel
  have hsuccessor : decimalValue successor = 9223372036854775808 := by decide +kernel
  have hout : line (withoutZeros greatest) = utf8 "9223372036854775807\n" := by decide +kernel
  have ha : utf8 "a" = [97] := by with_unfolding_all decide
  have hb : utf8 "b" = [98] := by with_unfolding_all decide
  have hcopy : Copyable .empty new chain := by
    refine ⟨?_, by decide +kernel, fun _ _ => rfl, fun x hx => .inl ?_⟩
    · have hnameA : IsName [97] := isName_singleton (by decide)
      have hnameB : IsName [98] := isName_singleton (by decide)
      simp [new, chain, ha, hb, hnameA, hnameB]
    · have hsub : ∀ x ∈ chain, x ∈ new := by decide +kernel
      exact hsub x hx
  obtain ⟨hprinted, -, hcopied⟩ := (literals_never_wrap greatest (by decide +kernel) hg .empty).1
    (by rw [hgreatest]; decide)
  have hfailed := (literals_never_wrap successor (by decide +kernel) hs .empty).2
    (by rw [hsuccessor]; decide)
  have hchain := hcopied new chain hcopy
  rw [hout, hgreatest] at hchain
  exact ⟨hg, hs, by decide +kernel, hout ▸ hprinted, hchain, hfailed.2.2 new chain hcopy⟩

end StatementLang
