import StatementLang.Interpreter.Error
import StatementLang.Proofs.Program

/-!
# The grammar on kinds of tokens

Kinds of tokens follow each other as the grammar allows if the spelling of some program starts with
them. What it allows next is settled by the place in a statement, and the places are just what an
error can name as expected: the start of a statement, the name behind `var`, an assignment sign, a
value and a semicolon.
-/

namespace StatementLang

/-- The spelling of some program starts with tokens of these kinds. -/
def Viable (ks : List TokenKind) : Prop := ∃ p : Program, ks <+: p.render.map Lexeme.kind

namespace Expected

/-- The place behind a token that can stand at a place, the end of input apart. -/
def after? : Expected → TokenKind → Option Expected
  | .statement, .var => some .identifier
  | .statement, .ident => some .assignment
  | .statement, .print => some .expression
  | .identifier, .ident => some .semicolon
  | .assignment, .assign => some .expression
  | .expression, .ident => some .semicolon
  | .expression, .int => some .semicolon
  | .semicolon, .semicolon => some .statement
  | _, _ => none

/-- A token of this kind can stand at the place. -/
def Allows (place : Expected) (k : TokenKind) : Prop :=
  (place.after? k).isSome ∨ (place = .statement ∧ k = .eof)

@[simp] theorem allows_statement_iff {k : TokenKind} :
    statement.Allows k ↔ k = .var ∨ k = .ident ∨ k = .print ∨ k = .eof := by
  cases k <;> simp [Allows, after?]

@[simp] theorem allows_identifier_iff {k : TokenKind} : identifier.Allows k ↔ k = .ident := by
  cases k <;> simp [Allows, after?]

@[simp] theorem allows_assignment_iff {k : TokenKind} : assignment.Allows k ↔ k = .assign := by
  cases k <;> simp [Allows, after?]

@[simp] theorem allows_expression_iff {k : TokenKind} :
    expression.Allows k ↔ k = .ident ∨ k = .int := by
  cases k <;> simp [Allows, after?]

@[simp] theorem allows_semicolon_iff {k : TokenKind} : semicolon.Allows k ↔ k = .semicolon := by
  cases k <;> simp [Allows, after?]

/-- The place behind tokens of these kinds, if each of them can stand where it does. -/
def along : Expected → List TokenKind → Option Expected
  | place, [] => some place
  | place, k :: ks => (place.after? k).bind fun next => next.along ks

@[simp] theorem along_append (place : Expected) (ks js : List TokenKind) :
    place.along (ks ++ js) = (place.along ks).bind fun next => next.along js := by
  induction ks generalizing place with
  | nil => rfl
  | cons k ks ih =>
    simp only [List.cons_append, along]
    cases place.after? k with
    | none => rfl
    | some next => exact ih next

theorem kind_ne_eof_of_after? {place next : Expected} {k : TokenKind}
    (h : place.after? k = some next) : k ≠ .eof := by
  rintro rfl
  cases place <;> cases h

@[simp] theorem along_lexemes_statement (s : Statement) :
    statement.along (s.lexemes.map Lexeme.kind) = some .semicolon := by
  cases s with
  | declare x => rfl
  | assign x e => cases e <;> rfl
  | print e => cases e <;> rfl

/-- Behind a program a statement can start. -/
@[simp] theorem along_lexemes (p : Program) :
    statement.along (p.lexemes.map Lexeme.kind) = some .statement := by
  induction p with
  | nil => rfl
  | cons s p ih =>
    rw [Program.lexemes_cons, List.map_append, along_append, along_lexemes_statement]
    exact ih

/-- A kind that can follow in a program can stand at the place. -/
theorem allows_of_viable {ks : List TokenKind} {k : TokenKind} (h : Viable (ks ++ [k])) :
    ∃ place, statement.along ks = some place ∧ place.Allows k := by
  obtain ⟨p, hp⟩ := h
  have hspell : p.render.map Lexeme.kind = p.lexemes.map Lexeme.kind ++ [.eof] := by
    simp [Program.render]
  have hprogram := along_lexemes p
  rw [hspell, List.prefix_concat_iff] at hp
  rcases hp with hall | ⟨more, hmore⟩
  · obtain ⟨rfl, hk⟩ := List.append_inj' hall rfl
    obtain rfl : k = .eof := by simpa using hk
    exact ⟨.statement, hprogram, .inr ⟨rfl, rfl⟩⟩
  · rw [← hmore, List.append_assoc, along_append] at hprogram
    obtain ⟨place, hplace, hrest⟩ := Option.bind_eq_some_iff.mp hprogram
    obtain ⟨next, hnext, -⟩ := Option.bind_eq_some_iff.mp hrest
    exact ⟨place, hplace, .inl (by rw [hnext]; rfl)⟩

/-- What has been read of a statement at a place. -/
inductive Opened : Expected → List TokenKind → Prop
  | nothing : Opened .statement []
  | declaring : Opened .identifier [.var]
  | assigning : Opened .assignment [.ident]
  | valuing : Opened .expression [.ident, .assign]
  | printing : Opened .expression [.print]
  | complete (s : Statement) : Opened .semicolon (s.lexemes.map Lexeme.kind)

/-- One more token goes on with the statement, or ends it and the next one can start. -/
theorem Opened.step {place next : Expected} {ks : List TokenKind} {k : TokenKind}
    (h : place.Opened ks) (hk : place.after? k = some next) :
    next.Opened (ks ++ [k]) ∨
      ∃ s : Statement, ks = s.lexemes.map Lexeme.kind ∧ k = .semicolon ∧ next = .statement := by
  cases h with
  | nothing =>
    cases k <;> cases hk
    · exact .inl .declaring
    · exact .inl .printing
    · exact .inl .assigning
  | declaring =>
    cases k <;> cases hk
    exact .inl (.complete (.declare []))
  | assigning =>
    cases k <;> cases hk
    exact .inl .valuing
  | valuing =>
    cases k <;> cases hk
    · exact .inl (.complete (.assign [] (.name [])))
    · exact .inl (.complete (.assign [] (.number [])))
  | printing =>
    cases k <;> cases hk
    · exact .inl (.complete (.print (.name [])))
    · exact .inl (.complete (.print (.number [])))
  | complete s =>
    cases k <;> cases hk
    exact .inr ⟨s, rfl, rfl, rfl⟩

/-- Tokens that lead to a place are a program and what has been read of its next statement. -/
theorem exists_opened {ks : List TokenKind} {place : Expected}
    (h : statement.along ks = some place) :
    ∃ (p : Program) (opened : List TokenKind), ks = p.lexemes.map Lexeme.kind ++ opened ∧
      place.Opened opened := by
  induction ks using List.reverseRecOn generalizing place with
  | nil =>
    obtain rfl : statement = place := Option.some.inj h
    exact ⟨[], [], rfl, .nothing⟩
  | append_singleton ks k ih =>
    rw [along_append] at h
    obtain ⟨before, hbefore, hk⟩ := Option.bind_eq_some_iff.mp h
    obtain ⟨next, hnext, hplace⟩ := Option.bind_eq_some_iff.mp hk
    obtain rfl : next = place := Option.some.inj hplace
    obtain ⟨p, opened, rfl, hopened⟩ := ih hbefore
    rcases hopened.step hnext with hstep | ⟨s, rfl, rfl, rfl⟩
    · exact ⟨p, opened ++ [k], by rw [List.append_assoc], hstep⟩
    · exact ⟨p ++ [s], [], by simp, .nothing⟩

/-- A statement that has been opened can be completed. -/
theorem Opened.exists_completion {place : Expected} {ks : List TokenKind} (h : place.Opened ks) :
    ∃ p : Program, ks <+: p.lexemes.map Lexeme.kind := by
  cases h with
  | nothing => exact ⟨[], by simp⟩
  | declaring => exact ⟨[.declare []], by simp⟩
  | assigning => exact ⟨[.assign [] (.name [])], by simp⟩
  | valuing => exact ⟨[.assign [] (.name [])], by simp⟩
  | printing => exact ⟨[.print (.name [])], by simp⟩
  | complete s => exact ⟨[s], by simp⟩

/-- What leads to a place is the beginning of a program. -/
theorem viable_of_along {ks : List TokenKind} {place : Expected}
    (h : statement.along ks = some place) : Viable ks := by
  obtain ⟨p, opened, rfl, hopened⟩ := exists_opened h
  obtain ⟨q, hq⟩ := hopened.exists_completion
  refine ⟨p ++ q, ?_⟩
  rw [Program.render, Program.lexemes_append, List.map_append, List.map_append, List.append_assoc]
  exact (List.prefix_append_right_inj _).mpr (hq.trans (List.prefix_append _ _))

/-- A name is expected behind `var` only. -/
theorem exists_var_of_along {ks : List TokenKind} (h : statement.along ks = some .identifier) :
    ∃ front, ks = front ++ [.var] := by
  obtain ⟨p, opened, rfl, hopened⟩ := exists_opened h
  cases hopened with
  | declaring => exact ⟨_, rfl⟩

end Expected

end StatementLang
