import Mathlib.Data.Set.Finite.Basic
import StatementLang.Proofs.Failure

/-!
# What stands before an error

An error is reported at the first place where the text can no longer become a program that runs:
whatever stands before it can be completed. And a run that fails has done what its completed
statements do, and nothing of the one it failed in unless only a semicolon was missing there.
-/

namespace StatementLang

variable {σ : Type}

/-- There is always a name that is not declared yet. -/
theorem exists_fresh (store : Store) : ∃ x : Bytes, Lexeme.WellFormed ⟨.ident, x⟩ ∧ x ∉ store := by
  have hinj : Function.Injective fun n : Nat => List.replicate (n + 1) (97 : UInt8) := by
    intro a b h
    have hlen := congrArg List.length h
    simpa using hlen
  obtain ⟨x, ⟨n, rfl⟩, hx⟩ := (Set.infinite_range_of_injective hinj).exists_notMem_finset store.keys
  refine ⟨_, .ident (by simp) ?_ ?_ ?_, fun hmem => hx (Finmap.mem_keys.mpr hmem)⟩
  · intro b hb
    rw [List.eq_of_mem_replicate hb]
    decide
  · rintro ⟨rest, h⟩
    simp [varWord, List.replicate_succ] at h
  · rintro ⟨rest, h⟩
    simp [printWord, List.replicate_succ] at h

namespace Stage

/-- The statement that completes a stage, if one has been started. -/
def finished (fresh : Bytes) : Stage → Program
  | .boundary => []
  | .declaring => [.declare fresh]
  | .assigning x => [.assign x (.number [48])]
  | .valuing x => [.assign x (.number [48])]
  | .printing => [.print (.number [48])]
  | .complete s => [s]

@[simp] theorem finished_boundary (fresh : Bytes) : boundary.finished fresh = [] := rfl

@[simp] theorem finished_declaring (fresh : Bytes) :
    declaring.finished fresh = [.declare fresh] := rfl

@[simp] theorem finished_assigning (fresh x : Bytes) :
    (assigning x).finished fresh = [.assign x (.number [48])] := rfl

@[simp] theorem finished_valuing (fresh x : Bytes) :
    (valuing x).finished fresh = [.assign x (.number [48])] := rfl

@[simp] theorem finished_printing (fresh : Bytes) :
    printing.finished fresh = [.print (.number [48])] := rfl

@[simp] theorem finished_complete (fresh : Bytes) (s : Statement) :
    (complete s).finished fresh = [s] := rfl

/-- The text that is missing to the end of the statement. -/
def missing (fresh : Bytes) : Stage → Bytes
  | .boundary => []
  | .declaring => space :: (fresh ++ [59])
  | .assigning _ => [61, 48, 59]
  | .valuing _ => [space, 48, 59]
  | .printing => [space, 48, 59]
  | .complete _ => [59]

end Stage

theorem wellFormed_zero : Lexeme.WellFormed ⟨.int, [48]⟩ := .int (by simp) (by simp [isDigit])

theorem Lexes.semicolon : Lexes [59] [.semicolon] := by
  have hend : Lexeme.semicolon.EndsBefore [] := by simp
  exact .lexeme blank_nil .semicolon hend (.blank blank_nil)

/-- A semicolon ends every lexeme. -/
theorem Lexes.closing {w : Bytes} {l : Lexeme} (hw : Blank w) (hl : l.WellFormed) :
    Lexes (w ++ (l.literal ++ [59])) [l, .semicolon] := by
  refine .lexeme hw hl ?_ .semicolon
  cases hl <;> simp [isLower, isDigit]

theorem blank_space : Blank [space] := by simp [space, isBlank]

namespace Stage

/-- With what is missing, the stage spells the statement that completes it. -/
theorem lexes_missing {fresh : Bytes} (hf : Lexeme.WellFormed ⟨.ident, fresh⟩) (stage : Stage) :
    ∃ ls, Lexes (stage.missing fresh) ls ∧
      stage.lexemes ++ ls = Program.lexemes (stage.finished fresh) := by
  cases stage with
  | boundary => exact ⟨[], .blank blank_nil, rfl⟩
  | declaring => exact ⟨_, .closing blank_space hf, by simp⟩
  | assigning x =>
    have hvalue : Lexes [48, 59] [⟨.int, [48]⟩, .semicolon] := .closing blank_nil wellFormed_zero
    have hend : Lexeme.EndsBefore ⟨.assign, [61]⟩ [48, 59] := by simp
    exact ⟨_, .lexeme blank_nil .assign hend hvalue, by simp⟩
  | valuing x =>
    exact ⟨_, .closing blank_space wellFormed_zero,
      by simp⟩
  | printing =>
    exact ⟨_, .closing blank_space wellFormed_zero,
      by simp⟩
  | complete s =>
    exact ⟨_, .semicolon, by simp⟩

/-- What is missing does not run into what is there. -/
theorem seam_missing (front fresh : Bytes) (stage : Stage) :
    Lexes.Seam front (stage.missing fresh) := by
  cases stage with
  | boundary => intro x _ y hy; cases hy
  | _ => exact .of_head (by decide)

/-- The statement that completes a stage has a value. -/
theorem eval?_finished {store final : Store} {values : List Int} {fresh : Bytes} {stage : Stage}
    (h : stage.eval? store = some (final, values)) (hf : fresh ∉ store) :
    ∃ final values, Program.eval? store (stage.finished fresh) = some (final, values) := by
  have hzero : (Expression.number [48]).value? store = some 0 := rfl
  cases stage with
  | boundary => exact ⟨_, _, rfl⟩
  | declaring => simp [hf]
  | assigning x =>
    have hx : x ∈ store := by
      by_contra hx
      simp [hx] at h
    simp [hx, hzero]
  | valuing x =>
    have hx : x ∈ store := by
      by_contra hx
      simp [hx] at h
    simp [hx, hzero]
  | printing => simp [hzero]
  | complete s =>
    have hs : s.eval? store = some (final, values) := h
    simp [hs]

end Stage

/-- A text that spells a program with a value runs to its end, with the effects of the value. -/
theorem execute_of_lexes {sink : Sink σ} (hs : sink.Reliable) {src : Bytes} {symbols : SymbolTable}
    (state : σ) {p : Program} {final : Store} {values : List Int} (h : Lexes src p.lexemes)
    (he : p.eval? symbols.store = some (final, values)) :
    (execute sink src symbols state).error = none ∧
      (execute sink src symbols state).machine.symbols.store = final ∧
      (execute sink src symbols state).machine.sink = sink.deliver state values ∧
      (execute sink src symbols state).machine.statements = p.length :=
  execute_of_program hs state (tokenize_lexemes_iff.mpr h).2 he

section Stalled

variable {sink : Sink σ} {src : Bytes} {symbols : SymbolTable} {state : σ} {n : Machine σ}
  {e : ProgramError} {p : Program} {stage : Stage} {d : Cursor}

/-- The text before the error spells what was executed and the stage that was reached. -/
theorem Machine.Stalls.exists_front
    (h : (Machine.start src symbols state).Stalls sink n e p stage d) :
    ∃ front, src = front ++ d.skipBlanks.rest ∧ e.pos = Position.start.afterText front ∧
      Lexes front (p.lexemes ++ stage.lexemes) := by
  obtain ⟨ts, hts, hlex⟩ := h.reads
  obtain ⟨text, hpass, htext⟩ := hts.lexes
  have hall := hpass.trans (Cursor.passes_skipBlanks d)
  refine ⟨_, hall.rest, ?_, ?_⟩
  · rw [h.blames.pos, hall.pos]
    rfl
  · rw [Lexes.append_blank_iff (Cursor.blank_takeWhile d.rest), ← hlex]
    exact htext

@[simp] theorem offset_afterText_start (front : Bytes) :
    (Position.start.afterText front).offset = front.length := by
  rw [Position.offset_afterText]
  exact Int.zero_add _

theorem Machine.Stalls.lexes_take
    (h : (Machine.start src symbols state).Stalls sink n e p stage d) :
    Lexes (src.take e.pos.offset.toNat) (p.lexemes ++ stage.lexemes) := by
  obtain ⟨front, hsrc, hpos, hlex⟩ := h.exists_front
  rw [hpos, offset_afterText_start, Int.toNat_natCast, hsrc, List.take_left]
  exact hlex

end Stalled

/-- Errors stand at the end of what can still be completed: a run that fails because of its program
reports an offset inside the text or at its end, and for some continuation the text before that
offset runs to its end. -/
theorem execute_error_viable {sink : Sink σ} (hs : sink.Reliable) (src : Bytes)
    (symbols : SymbolTable) (state : σ) (e : ProgramError)
    (h : (execute sink src symbols state).error = some (.program e)) :
    0 ≤ e.pos.offset ∧ e.pos.offset ≤ src.length ∧
      ∃ more, (execute sink (src.take e.pos.offset.toNat ++ more) symbols state).error = none := by
  obtain ⟨p, stage, d, hstall⟩ := execute_stalls hs h
  obtain ⟨front, hsrc, hpos, -⟩ := hstall.exists_front
  obtain ⟨mid, first, more, hp, hstage, -⟩ := hstall.effect
  have hoffset : e.pos.offset = front.length := by rw [hpos, offset_afterText_start]
  have hlen := congrArg List.length hsrc
  rw [List.length_append] at hlen
  refine ⟨by omega, by omega, ?_⟩
  obtain ⟨fresh, hfresh, hnew⟩ := exists_fresh mid
  obtain ⟨ls, hls, hspell⟩ := stage.lexes_missing hfresh
  obtain ⟨final, values, hfin⟩ := Stage.eval?_finished hstage hnew
  have htext : Lexes (src.take e.pos.offset.toNat ++ stage.missing fresh)
      (p ++ stage.finished fresh).lexemes := by
    rw [Program.lexemes_append, ← hspell, ← List.append_assoc]
    exact hstall.lexes_take.append hls (stage.seam_missing _ fresh)
  have heval : (p ++ stage.finished fresh).eval? symbols.store = some (final, first ++ values) :=
    Program.eval?_append_eq_some_iff.mpr ⟨mid, first, values, hp, hfin, rfl⟩
  exact ⟨stage.missing fresh, (execute_of_lexes hs state htext heval).1⟩

/-- A name declared twice is blamed where it stands the second time: another name would do. -/
theorem execute_error_viable_redefined :
    let src := utf8 "var a; var a; print a;"
    let e : ProgramError := ⟨.symbol (.redefined (utf8 "a")), ⟨1, 12, 11⟩⟩
    Sink.collector.Reliable ∧
    (execute Sink.collector src .empty []).error = some (.program e) ∧
    ∃ more, (execute Sink.collector (utf8 "var a; var " ++ more) .empty []).error = none := by
  intro src e
  have hs : Sink.collector.Reliable := fun _ _ => rfl
  have h : (execute Sink.collector src .empty []).error = some (.program e) := by decide +kernel
  have htake : src.take e.pos.offset.toNat = utf8 "var a; var " := by decide +kernel
  obtain ⟨-, -, more, hmore⟩ := execute_error_viable hs src .empty [] e h
  rw [htake] at hmore
  exact ⟨hs, h, more, hmore⟩

def Scan.semicolonsBefore (offset : Int) (s : Scan) : List Token :=
  s.tokens.filter fun t => t.kind = .semicolon ∧ t.pos.offset < offset

/-- The offset behind the last token of a list of semicolons. -/
def behindLast (ts : List Token) : Nat :=
  match ts.getLast? with
  | none => 0
  | some t => (t.pos.offset + 1).toNat

namespace Program

/-- A program has as many semicolons as statements. -/
@[simp] theorem countP_semicolon (p : Program) :
    p.lexemes.countP (fun l => l.kind = .semicolon) = p.length := by
  induction p with
  | nil => rfl
  | cons s p ih =>
    have hs : s.lexemes.countP (fun l => l.kind = .semicolon) = 0 := by
      rw [List.countP_eq_zero]
      intro l hl
      simpa using (Statement.kind_of_mem hl).2
    rw [lexemes_cons, List.countP_append, List.countP_cons, ih, hs]
    simp

end Program

namespace Stage

theorem kind_of_mem {stage : Stage} {l : Lexeme} (h : l ∈ stage.lexemes) :
    l.kind ≠ .semicolon := by
  cases stage with
  | complete s => exact (Statement.kind_of_mem h).2
  | boundary => cases h
  | valuing x =>
    simp only [lexemes, List.mem_cons, List.not_mem_nil, or_false] at h
    rcases h with rfl | rfl <;> simp
  | _ =>
    obtain rfl := List.mem_singleton.mp h
    simp

/-- A stage before the end of its statement has had no effect, and spells no statement. -/
theorem complete_or_still {store final : Store} {values : List Int} {stage : Stage}
    (h : stage.eval? store = some (final, values)) :
    (∃ s, stage = .complete s) ∨
      (final = store ∧ values = [] ∧ ∀ s : Statement, s.lexemes ≠ stage.lexemes) := by
  cases stage with
  | complete s => exact .inl ⟨s, rfl⟩
  | _ =>
    refine .inr ?_
    obtain ⟨rfl, rfl⟩ : store = final ∧ [] = values := by
      simp only [eval?, Option.ite_none_right_eq_some, Option.some.injEq, Prod.mk.injEq] at h
      tauto
    exact ⟨rfl, rfl, fun s => by cases s <;> simp⟩

/-- A semicolon behind a stage that spells no statement makes no program. -/
theorem lexemes_ne {stage : Stage} (h : ∀ s : Statement, s.lexemes ≠ stage.lexemes)
    (p r : Program) : r.lexemes ≠ p.lexemes ++ stage.lexemes ++ [.semicolon] := by
  intro hr
  induction p generalizing r with
  | nil =>
    cases r with
    | nil => simp at hr
    | cons s r =>
      rw [Program.lexemes_cons, Program.lexemes_nil, List.nil_append] at hr
      rcases append_eq_append_cons hr with ⟨more, hs, -⟩ | ⟨more, hstage, hmore⟩
      · have hmem : Lexeme.semicolon ∈ s.lexemes := by simp [hs]
        exact (Statement.kind_of_mem hmem).2 rfl
      · cases more with
        | nil => exact h s (by simpa using hstage.symm)
        | cons l more =>
          obtain ⟨rfl, -⟩ := List.cons.inj hmore
          have hmem : Lexeme.semicolon ∈ stage.lexemes := by simp [hstage]
          exact kind_of_mem hmem rfl
  | cons s p ih =>
    have hcut : r.lexemes =
        s.lexemes ++ .semicolon :: (Program.lexemes p ++ stage.lexemes ++ [.semicolon]) := by
      simpa using hr
    obtain ⟨q, r', -, -, hr'⟩ := Program.exists_append_of_semicolon hcut
    exact ih r' hr'

end Stage

namespace Cursor.Reads

variable {c d : Cursor} {t : Token} {ts : List Token}

/-- The semicolons before the place where a run stopped are those that it has pulled. -/
theorem semicolonsBefore_eq (h : c.Reads ts d) :
    c.scan.semicolonsBefore d.skipBlanks.pos.offset = ts.filter fun t => t.kind = .semicolon := by
  let before := fun t : Token =>
    decide (t.kind = .semicolon ∧ t.pos.offset < d.skipBlanks.pos.offset)
  have hpulled : ts.filter before = ts.filter fun t => t.kind = .semicolon := by
    refine List.filter_congr fun t ht => ?_
    have hlt := Int.lt_of_lt_of_le (h.offset_lt t ht) d.offset_le_skipBlanks
    simp [before, hlt]
  have hleft : d.scan.tokens.filter before = [] := by
    refine List.filter_eq_nil_iff.mpr fun t ht => ?_
    have hle := Int.not_lt.mpr (d.offset_le_of_mem_scan t ht)
    simp [before, hle]
  rw [Scan.semicolonsBefore, h.scan_eq, List.filter_append, hpulled, hleft, List.append_nil]

theorem offset_concat (h : c.Reads (ts ++ [t]) d) :
    d.pos.offset = t.pos.offset + t.literal.length := by
  obtain ⟨c', -, hlast⟩ := append_iff.mp h
  obtain ⟨ht, hk, hd⟩ := cons_iff.mp hlast
  obtain ⟨-, -, hpos, hpass⟩ := passes_of_token ht hk
  rw [nil_iff.mp hd, hpass.offset, hpos]

/-- The tokens of a program end with its last semicolon. -/
theorem behindLast_eq {src : Bytes} {p : Program} (h : (Cursor.start src).Reads ts d)
    (hp : ts.map Token.toLexeme = p.lexemes) :
    behindLast (ts.filter fun t => t.kind = .semicolon) = d.pos.offset.toNat := by
  rcases List.eq_nil_or_concat' ts with rfl | ⟨front, t, rfl⟩
  · obtain rfl := nil_iff.mp h
    rfl
  · rw [List.map_append] at hp
    have ht : t.toLexeme = .semicolon := Program.eq_semicolon_of_last hp.symm
    have hk : t.kind = .semicolon := congrArg Lexeme.kind ht
    have hlen : t.literal.length = 1 := congrArg (fun l : Lexeme => l.literal.length) ht
    rw [h.offset_concat, hlen]
    simp [behindLast, hk]

end Cursor.Reads

section Stalled

variable {sink : Sink σ} {src : Bytes} {symbols : SymbolTable} {state : σ} {n : Machine σ}
  {e : ProgramError} {p : Program} {stage : Stage} {d : Cursor}

/-- The text up to the last semicolon before the error spells what was executed. -/
theorem Machine.Stalls.cut
    (h : (Machine.start src symbols state).Stalls sink n e p stage d) :
    ((tokenize src).semicolonsBefore e.pos.offset).length = p.length ∧
      Lexes (src.take (behindLast ((tokenize src).semicolonsBefore e.pos.offset))) p.lexemes := by
  obtain ⟨ts, hts, hlex⟩ := h.reads
  obtain ⟨front, more, rfl, hfront, hmore⟩ := List.map_eq_append_iff.mp hlex
  obtain ⟨c, hc, -⟩ := Cursor.Reads.append_iff.mp hts
  have hstage : ∀ t ∈ more, t.kind ≠ .semicolon := by
    intro t ht
    exact Stage.kind_of_mem (hmore ▸ List.mem_map_of_mem ht)
  have hended : (tokenize src).semicolonsBefore e.pos.offset =
      front.filter fun t => t.kind = .semicolon := by
    have hnone : (more.filter fun t => t.kind = .semicolon) = [] := by
      rw [List.filter_eq_nil_iff]
      intro t ht
      simpa using hstage t ht
    rw [h.blames.pos]
    refine hts.semicolonsBefore_eq.trans ?_
    rw [List.filter_append, hnone, List.append_nil]
  obtain ⟨text, hpass, htext⟩ := hc.lexes
  have hsrc : src = text ++ c.rest := hpass.rest
  have hoffset : c.pos.offset = text.length := by
    rw [hpass.pos]
    exact offset_afterText_start text
  rw [hended, hc.behindLast_eq hfront]
  refine ⟨?_, ?_⟩
  · rw [← List.countP_eq_length_filter, ← p.countP_semicolon, ← hfront, List.countP_map]
    rfl
  · rw [hoffset, Int.toNat_natCast, hsrc, List.take_left, ← hfront]
    exact htext

/-- With a semicolon behind it, a stage runs to its end only if its statement is complete, and then
with the effect that it has had already. -/
theorem Machine.Stalls.closed (hs : sink.Reliable)
    (h : (Machine.start src symbols state).Stalls sink n e p stage d) :
    let closed := execute sink (src.take e.pos.offset.toNat ++ [59]) symbols state
    (closed.error = none ∧ closed.machine.symbols.store = n.symbols.store ∧
      closed.machine.sink = n.sink) ∨
    (closed.error ≠ none ∧ ∃ values, p.eval? symbols.store = some (n.symbols.store, values) ∧
      n.sink = sink.deliver state values) := by
  intro closed
  obtain ⟨mid, first, more, hp, hstage, hsink⟩ := h.effect
  have hlex : Lexes (src.take e.pos.offset.toNat ++ [59])
      (p.lexemes ++ stage.lexemes ++ [.semicolon]) :=
    h.lexes_take.append .semicolon (.of_head (by decide))
  rcases Stage.complete_or_still hstage with ⟨s, rfl⟩ | ⟨hmid, rfl, hne⟩
  · left
    have hspell : p.lexemes ++ (Stage.complete s).lexemes ++ [.semicolon] =
        Program.lexemes (p ++ [s]) := by
      simp
    have hs' : s.eval? mid = some (n.symbols.store, more) := hstage
    have heval : Program.eval? symbols.store (p ++ [s]) =
        some (n.symbols.store, first ++ more) :=
      Program.eval?_append_eq_some_iff.mpr ⟨mid, first, more, hp, by simp [hs'], rfl⟩
    obtain ⟨herr, hstore, hout, -⟩ := execute_of_lexes hs state (hspell ▸ hlex) heval
    exact ⟨herr, hstore, hout.trans hsink.symm⟩
  · right
    refine ⟨?_, first, by rw [hmid]; exact hp, by rw [hsink, List.append_nil]; rfl⟩
    intro herr
    obtain ⟨-, r, final, values, hr, -⟩ := program_of_execute hs herr
    rw [(tokenize_lexemes_iff.mpr hlex).2] at hr
    exact Stage.lexemes_ne hne p r (List.append_cancel_right hr).symm

end Stalled

/-- A run that fails because of its program has executed the statements that end before the error,
and nothing else counts: up to the last of their semicolons the text runs to its end, with the same
number of statements. The table and the output are those of that run, except where a semicolon in
the place of the error would have completed a statement; there they are those of the text with this
semicolon. -/
theorem execute_error_keeps_completed {sink : Sink σ} (hs : sink.Reliable) (src : Bytes)
    (symbols : SymbolTable) (state : σ) (e : ProgramError)
    (h : (execute sink src symbols state).error = some (.program e)) :
    let failed := (execute sink src symbols state).machine
    let ended := (tokenize src).semicolonsBefore e.pos.offset
    let cut := execute sink (src.take (behindLast ended)) symbols state
    let closed := execute sink (src.take e.pos.offset.toNat ++ [59]) symbols state
    failed.statements = ended.length ∧
    cut.error = none ∧ cut.machine.statements = ended.length ∧
    (closed.error = none →
      failed.symbols = closed.machine.symbols ∧ failed.sink = closed.machine.sink) ∧
    (closed.error ≠ none →
      failed.symbols = cut.machine.symbols ∧ failed.sink = cut.machine.sink) := by
  intro failed ended cut closed
  obtain ⟨p, stage, d, hstall⟩ := execute_stalls hs h
  obtain ⟨hcount, hlex⟩ := hstall.cut
  obtain ⟨mid, first, more, hp, -⟩ := hstall.effect
  obtain ⟨hcut, -, -, hlen⟩ := execute_of_lexes hs state hlex hp
  have hstatements : failed.statements = p.length := by
    rw [hstall.statements]
    exact Nat.zero_add _
  refine ⟨hstatements.trans hcount.symm, hcut, hlen.trans hcount.symm, ?_, ?_⟩
  · intro hclosed
    rcases hstall.closed hs with ⟨-, hsym, hdone⟩ | ⟨hne, -⟩
    · exact ⟨(SymbolTable.store_injective hsym).symm, hdone.symm⟩
    · exact absurd hclosed hne
  · intro hclosed
    rcases hstall.closed hs with ⟨herr, -⟩ | ⟨-, values, hp', hdone⟩
    · exact absurd herr hclosed
    · obtain ⟨-, hstore, hout, -⟩ := execute_of_lexes hs state hlex hp'
      exact ⟨SymbolTable.store_injective hstore.symm, hdone.trans hout.symm⟩

/-- A value that only lacks its semicolon has been printed; an assignment that fails at its value
has assigned nothing. -/
theorem execute_error_keeps_completed_print :
    let unclosed := utf8 "var a; print 7 a;"
    let inside := utf8 "var a; a = 7; a = b;"
    let e : ProgramError := ⟨.unexpected .semicolon ⟨.ident, utf8 "a"⟩, ⟨1, 16, 15⟩⟩
    let e' : ProgramError := ⟨.symbol (.undefined (utf8 "b")), ⟨1, 19, 18⟩⟩
    Sink.collector.Reliable ∧
    (execute Sink.collector unclosed .empty []).error = some (.program e) ∧
    (execute Sink.collector unclosed .empty []).machine.statements = 1 ∧
    (execute Sink.collector unclosed .empty []).machine.sink = [7] ∧
    (execute Sink.collector inside .empty []).error = some (.program e') ∧
    (execute Sink.collector inside .empty []).machine.symbols.get? (utf8 "a") = some 7 := by
  intro unclosed inside e e'
  have hs : Sink.collector.Reliable := fun _ _ => rfl
  have h : (execute Sink.collector unclosed .empty []).error = some (.program e) := by
    decide +kernel
  have h' : (execute Sink.collector inside .empty []).error = some (.program e') := by
    decide +kernel
  obtain ⟨hcount, -, -, hclosed, -⟩ := execute_error_keeps_completed hs unclosed .empty [] e h
  obtain ⟨-, -, -, -, hcut⟩ := execute_error_keeps_completed hs inside .empty [] e' h'
  refine ⟨hs, h, hcount.trans ?_, (hclosed ?_).2.trans ?_, h', ?_⟩
  · decide +kernel
  · decide +kernel
  · decide +kernel
  · rw [(hcut (by decide +kernel)).1]
    decide +kernel

end StatementLang
