import StatementLang.Proofs.Grammar
import StatementLang.Proofs.LexicalErrors

/-!
# Error reports are sound

Every step of a run goes along the grammar. Where it fails because of the program, the grammar
allows what was read so far, and what comes next is refused for a reason that can be checked: it
matches no token, or the grammar does not allow it there, or it has no meaning in the table that is
left. So of every run that fails exactly one thing can be said, and its report says it.
-/

namespace StatementLang

variable {σ α β : Type}

/-- What comes next is refused at a place of the grammar, with the names of a store. -/
inductive Cursor.Refuses (c : Cursor) (store : Store) : Expected → ProgramError → Prop
  | unmatched {place : Expected} {e : LexError} (h : c.next.1 = .error e) :
      Refuses c store place (.ofLexError e)
  | unexpected {place : Expected} {t : Token} (h : c.next.1 = .ok t)
      (hk : ¬ place.Allows t.kind) : Refuses c store place (.unexpected place t)
  | undefined {place : Expected} {t : Token} (h : c.next.1 = .ok t) (hk : t.kind = .ident)
      (hx : t.literal ∉ store) : Refuses c store place ⟨.symbol (.undefined t.literal), t.pos⟩
  | redefined {t : Token} (h : c.next.1 = .ok t) (hk : t.kind = .ident)
      (hx : t.literal ∈ store) :
      Refuses c store .identifier ⟨.symbol (.redefined t.literal), t.pos⟩
  | overflow {place : Expected} {t : Token} (h : c.next.1 = .ok t) (hk : t.kind = .int)
      (hv : 2 ^ 63 - 1 < decimalValue t.literal) :
      Refuses c store place ⟨.outOfRange t.literal, t.pos⟩

/-- From a cursor at one place of the grammar, what was read leads to another place, or to one where
what comes next is refused; or the sink has refused a value. -/
inductive Outcome.Keeps (c : Cursor) (first last : Expected) : Outcome σ α → Prop
  | ok {a : α} {n : Machine σ} {ts : List Token} (hr : c.Reads ts n.cursor)
      (hp : first.along (ts.map (·.kind)) = some last) : Keeps c first last (.ok a n)
  | fail {e : ProgramError} {n : Machine σ} {ts : List Token} {d : Cursor} {place : Expected}
      (hr : c.Reads ts d) (hp : first.along (ts.map (·.kind)) = some place)
      (h : d.Refuses n.symbols.store place e) : Keeps c first last (.fail (.program e) n)
  | output (reason : Bytes) (n : Machine σ) : Keeps c first last (.fail (.output reason) n)

namespace Outcome.Keeps

variable {c : Cursor} {first next last : Expected} {m n : Machine σ} {t : Token}

/-- What comes next is refused right away. -/
theorem refused {e : ProgramError} (h : c.Refuses n.symbols.store first e) :
    Keeps c first last (.fail (.program e) n : Outcome σ α) := .fail (.nil c) rfl h

theorem andThen {x : Outcome σ α} {f : α → Machine σ → Outcome σ β} (hx : x.Keeps c first next)
    (hf : ∀ a n, x = .ok a n → (f a n).Keeps n.cursor next last) :
    (x.andThen f).Keeps c first last := by
  cases hx with
  | @ok a n ts hr hp =>
    have hrest := hf a n rfl
    rw [ok_andThen]
    generalize f a n = y at hrest ⊢
    cases hrest with
    | @ok b k us hr' hp' =>
      refine .ok (hr.trans hr') ?_
      rw [List.map_append, Expected.along_append, hp]
      exact hp'
    | @fail e k us d place hr' hp' h =>
      refine .fail (hr.trans hr') ?_ h
      rw [List.map_append, Expected.along_append, hp]
      exact hp'
    | output reason k => exact .output reason k
  | fail hr hp h => exact .fail hr hp h
  | output reason n => exact .output reason n

/-- A step that reads a token first keeps to the grammar if it does with every token. -/
theorem read {f : Token → Machine σ → Outcome σ α}
    (h : ∀ t, m.cursor.next.1 = .ok t → (f t m.behind).Keeps m.cursor first last) :
    (m.read.andThen f).Keeps m.cursor first last := by
  cases hc : m.cursor.next.1 with
  | error e =>
    rw [Machine.read_of_error hc]
    exact refused (.unmatched hc)
  | ok t =>
    rw [Machine.read_of_ok hc]
    exact h t hc

theorem taken (h : m.cursor.next.1 = .ok t) (hk : first.after? t.kind = some next) :
    (Outcome.ok t m.behind).Keeps m.cursor first next := by
  refine .ok (.single h (Expected.kind_ne_eof_of_after? hk)) ?_
  rw [List.map_singleton, Expected.along, hk]
  rfl

/-- A token that can stand where it does has been read. -/
theorem behind {x : Outcome σ α} (h : m.cursor.next.1 = .ok t)
    (hk : first.after? t.kind = some next) (hx : x.Keeps m.behind.cursor next last) :
    x.Keeps m.cursor first last := by
  have hstep : ((Outcome.ok t m.behind).andThen fun _ _ => x).Keeps m.cursor first last := by
    refine (taken h hk).andThen fun a n ha => ?_
    injection ha with _ hn
    exact hn ▸ hx
  exact hstep

end Outcome.Keeps

namespace SymbolTable

variable {t : SymbolTable} {x : Bytes} {err : SymbolError}

theorem notMem_of_lookup_error (h : t.lookup x = .error err) : x ∉ t.store := by
  intro hx
  obtain ⟨v, hv⟩ := Finmap.mem_iff.mp hx
  rw [lookup_eq_ok_iff.mpr hv] at h
  cases h

theorem mem_of_declare_error (h : t.declare x = .error err) : x ∈ t.store := by
  by_contra hx
  obtain ⟨u, hu, -⟩ := declare_of_notMem hx
  rw [hu] at h
  cases h

end SymbolTable

/-- A token without a value cannot stand where a value is expected, or is undefined or too great. -/
theorem refuses_of_evaluate {c : Cursor} {t : Token} {symbols : SymbolTable} {e : ProgramError}
    (ht : c.next.1 = .ok t) (h : evaluate symbols t = .error e) :
    c.Refuses symbols.store .expression e := by
  obtain ⟨⟨kind, literal⟩, pos⟩ := t
  cases kind with
  | ident =>
    simp only [evaluate] at h
    split at h
    · cases h
    · rename_i err herr
      injection h with h
      subst h
      rw [SymbolTable.lookup_eq_error herr]
      exact .undefined ht rfl (SymbolTable.notMem_of_lookup_error herr)
  | int =>
    simp only [evaluate, literalValue?_eq] at h
    by_cases hle : decimalValue literal ≤ maxValue
    · rw [if_pos hle] at h
      cases h
    · rw [if_neg hle] at h
      injection h with h
      subst h
      exact .overflow ht rfl (Nat.lt_of_not_le hle)
  | _ =>
    injection h with h
    subst h
    exact .unexpected ht (by simp)

theorem after?_of_evaluate {t : Token} {symbols : SymbolTable} {v : Int}
    (h : evaluate symbols t = .ok v) : Expected.expression.after? t.kind = some .semicolon := by
  obtain ⟨e, he, -⟩ := evaluate_eq_ok_iff.mp h
  rw [he]
  cases e <;> rfl

namespace Machine

variable {sink : Sink σ} {m n : Machine σ} {t : Token} {e : ProgramError}

theorem expression_keeps (m : Machine σ) :
    m.expression.Keeps m.cursor .expression .semicolon := by
  refine .read fun t ht => ?_
  cases he : evaluate m.behind.symbols t with
  | ok v =>
    simp only
    exact .behind ht (after?_of_evaluate he) (.ok (.nil _) rfl)
  | error e => exact .refused (refuses_of_evaluate ht he)

theorem declaration_keeps (m : Machine σ) :
    m.declaration.Keeps m.cursor .identifier .semicolon := by
  refine .read fun t ht => ?_
  by_cases hk : t.kind = .ident
  · rw [if_pos hk]
    cases hd : m.behind.symbols.declare t.literal with
    | ok symbols =>
      exact .behind ht (by rw [hk]; rfl) (.ok (.nil _) rfl)
    | error err =>
      rw [SymbolTable.declare_eq_error hd]
      exact .refused (.redefined ht hk (SymbolTable.mem_of_declare_error hd))
  · rw [if_neg hk]
    exact .refused (.unexpected ht (by simp [hk]))

/-- The target is declared, and the rest of its assignment has not been read. -/
theorem assignment_keeps {old : Int} (hold : m.symbols.lookup t.literal = .ok old) :
    (m.assignment t).Keeps m.cursor .assignment .semicolon := by
  simp only [assignment, hold]
  refine .read fun a ha => ?_
  by_cases hk : a.kind = .assign
  · rw [if_pos hk]
    refine .behind ha (by rw [hk]; rfl) ?_
    exact (expression_keeps m.behind).andThen fun v n _ => .ok (.nil _) rfl
  · rw [if_neg hk]
    exact .refused (.unexpected ha (by simp [hk]))

theorem printing_keeps (sink : Sink σ) (pos : Position) (m : Machine σ) :
    (m.printing sink pos).Keeps m.cursor .expression .semicolon := by
  refine (expression_keeps m).andThen fun v n _ => ?_
  split
  · exact .ok (.nil _) rfl
  · exact .output _ _

/-- A statement that is not the end of input is read along the grammar. -/
theorem opening_keeps (sink : Sink σ) (hne : ∀ t, m.cursor.next.1 = .ok t → t.kind ≠ .eof) :
    (m.read.andThen (statement sink)).Keeps m.cursor .statement .semicolon := by
  refine .read fun t ht => ?_
  have heof := hne t ht
  cases hk : t.kind with
  | var =>
    simp only [statement, hk]
    exact .behind ht (by rw [hk]; rfl) (declaration_keeps m.behind)
  | ident =>
    simp only [statement, hk]
    cases hl : m.behind.symbols.lookup t.literal with
    | ok old =>
      exact .behind ht (by rw [hk]; rfl) (assignment_keeps hl)
    | error err =>
      -- the target is blamed although it has been read
      simp only [assignment, hl]
      rw [SymbolTable.lookup_eq_error hl]
      exact .refused (.undefined ht hk (SymbolTable.notMem_of_lookup_error hl))
  | print =>
    simp only [statement, hk]
    exact .behind ht (by rw [hk]; rfl) (printing_keeps sink t.pos m.behind)
  | eof => exact absurd hk heof
  | _ =>
    simp only [statement, hk]
    exact .refused (.unexpected ht (by simp [hk]))

theorem round_keeps (sink : Sink σ) (hne : ∀ t, m.cursor.next.1 = .ok t → t.kind ≠ .eof) :
    (m.round sink).Keeps m.cursor .statement .statement := by
  refine (opening_keeps sink hne).andThen fun _ n _ => .read fun s hs => ?_
  by_cases hk : s.kind = .semicolon
  · rw [if_pos hk]
    exact .behind hs (by rw [hk]; rfl) (.ok (.nil _) rfl)
  · rw [if_neg hk]
    exact .refused (.unexpected hs (by simp [hk]))

/-- A run that fails because of its program has gone along the grammar up to what it refuses. -/
theorem proceed_refuses (h : m.proceed sink = .fail (.program e) n) :
    ∃ (ts : List Token) (d : Cursor) (place : Expected), m.cursor.Reads ts d ∧
      Expected.statement.along (ts.map (·.kind)) = some place ∧
      d.Refuses n.symbols.store place e := by
  induction m using round_induction sink with
  | step m ih =>
    rcases m.proceed_cases sink with ⟨t, -, -, hp⟩ | ⟨k, hround, hp⟩ | ⟨err, k, hne, hround, hp⟩
    · rw [h] at hp
      cases hp
    · have hne : ∀ t, m.cursor.next.1 = .ok t → t.kind ≠ .eof := by
        intro t ht hk
        rw [round_of_eof sink ht hk] at hround
        cases hround
      have hkeeps := round_keeps sink hne
      rw [hround] at hkeeps
      obtain ⟨us, d, place, hus, hplace, hrefuses⟩ := ih k hround (hp ▸ h)
      cases hkeeps with
      | @ok _ _ ts hts hp =>
        refine ⟨ts ++ us, d, place, hts.trans hus, ?_, hrefuses⟩
        rw [List.map_append, Expected.along_append, hp]
        exact hplace
    · have hkeeps := round_keeps sink hne
      rw [h] at hp
      injection hp with herr hn
      subst herr hn
      rw [hround] at hkeeps
      cases hkeeps with
      | @fail _ _ ts d place hts hplace hrefuses => exact ⟨ts, d, place, hts, hplace, hrefuses⟩

end Machine

/-- A token as messages quote it: names and integers with their class in front. -/
def Token.quotation (t : Token) : Bytes :=
  match t.kind with
  | .eof => utf8 "end of input"
  | .ident => utf8 "IDENT(\"" ++ t.literal ++ utf8 "\")"
  | .int => utf8 "INT(\"" ++ t.literal ++ utf8 "\")"
  | _ => utf8 "\"" ++ t.literal ++ utf8 "\""

theorem quoteRune_ofByte {b : UInt8} (h : isSolid b) : quoteRune (Rune.ofByte b) = [b] := by
  obtain ⟨hlow, hhigh⟩ := solid_bounds h
  have hshown : isPrintable b.toNat := by
    refine List.any_eq_true.mpr ⟨⟨0x20, 0x7e⟩, List.mem_cons_self, ?_⟩
    simp only [CodeRange.contains, Bool.and_eq_true, decide_eq_true_eq]
    omega
  have hslash : b.toNat ≠ 92 := by
    intro hb
    obtain rfl : b = 92 := UInt8.toNat_inj.mp hb
    cases h
  rw [Rune.ofByte, quoteRune, if_neg (by omega), if_pos hshown,
    encodeRune_of_lt (by omega), UInt8.ofNat_toNat]

/-- Nothing in the spelling of a token is escaped. -/
theorem Lexeme.WellFormed.quote_literal {l : Lexeme} (h : l.WellFormed) :
    quote l.literal = utf8 "\"" ++ l.literal ++ utf8 "\"" := by
  have hmark : utf8 "\"" = [34] := by with_unfolding_all decide
  rw [quote, runes_of_ascii fun b hb => ascii_of_scannable (.inr (h.solid b hb)),
    flatMap_ofByte fun b hb => quoteRune_ofByte (h.solid b hb), hmark]
  rfl

/-- Messages describe the tokens that the scanner makes by quoting them. -/
theorem describe_of_next {c : Cursor} {t : Token} (h : c.next.1 = .ok t) :
    t.describe = t.quotation := by
  have hident : utf8 "IDENT(\"" = utf8 "IDENT" ++ (utf8 "(" ++ utf8 "\"") := by with_unfolding_all decide
  have hint : utf8 "INT(\"" = utf8 "INT" ++ (utf8 "(" ++ utf8 "\"") := by with_unfolding_all decide
  have hback : utf8 "\")" = utf8 "\"" ++ utf8 ")" := by with_unfolding_all decide
  obtain ⟨l, pos⟩ := t
  rcases Cursor.next_ok_cases h with ⟨rfl, -, -⟩ | ⟨hwf, -, -⟩
  · rfl
  · have hquote := hwf.quote_literal
    cases hwf <;>
      simp_all [Lexeme.describe, Token.quotation, TokenKind.isLiteral, TokenKind.name]

/-- What an error goes back to beyond itself. A token that is not expected needs no other reason. -/
inductive Reason where
  | unmatched
  | undefined
  | redefined
  | overflow
  deriving DecidableEq, Repr

def Cause.reason? : Cause → Option Reason
  | .unmatched _ => some .unmatched
  | .unexpected _ _ => none
  | .symbol (.undefined _) => some .undefined
  | .symbol (.redefined _) => some .redefined
  | .outOfRange _ => some .overflow

namespace ProgramError

/-- The error stands where the `i`-th token of the source does, the end of input among them. -/
structure StandsAt (src : Bytes) (e : ProgramError) (i : Nat) (t : Token) : Prop where
  token : (tokenize src).tokens[i]? = some t
  pos : e.pos = t.pos

/-- Before its `i`-th token a source is the beginning of a program, with it no longer; the error
quotes the token and has no other reason. -/
structure SyntaxFault (src : Bytes) (e : ProgramError) (i : Nat) (t : Token) : Prop
    extends e.StandsAt src i t where
  kind : e.kind = .syntactic
  reason : e.cause.reason? = none
  quoted : t.quotation <:+ e.message
  begins : Viable (((tokenize src).tokens.take i).map (·.kind))
  breaks : ¬ Viable (((tokenize src).tokens.take i).map (·.kind) ++ [t.kind])

/-- What a token at which the error stands stands for does not exist, exists already or is too
great, by the table that the run leaves. -/
inductive SemanticFault (src : Bytes) (final : SymbolTable) (e : ProgramError) : Prop
  | undefined {i : Nat} {t : Token} (stands : e.StandsAt src i t)
      (reason : e.cause.reason? = some .undefined) (ident : t.kind = .ident)
      (names : e.message = utf8 "undefined variable: " ++ t.literal)
      (missing : final.get? t.literal = none)
  | redefined {i : Nat} {t u : Token} {v : Int} (stands : e.StandsAt src (i + 1) t)
      (reason : e.cause.reason? = some .redefined) (ident : t.kind = .ident)
      (before : (tokenize src).tokens[i]? = some u) (var : u.kind = .var)
      (names : e.message = utf8 "redefined variable: " ++ t.literal)
      (present : final.get? t.literal = some v)
  | overflow {i : Nat} {t : Token} (stands : e.StandsAt src i t)
      (reason : e.cause.reason? = some .overflow) (int : t.kind = .int)
      (carries : e.message = utf8 "integer literal out of range: " ++ t.literal)
      (great : 2 ^ 63 - 1 < decimalValue t.literal)

end ProgramError

/-- The four things that can be said of a run that has failed. -/
inductive Verdict where
  | lexical
  | syntactic
  | semantic
  | refused
  deriving DecidableEq, Repr

/-- The verdict is right of a run of the source that has ended with the error. -/
def Verdict.Fits (sink : Sink σ) (src : Bytes) (state : σ) (left : Machine σ) (e : RunError) :
    Verdict → Prop
  | .lexical => ∃ pe, e = .program pe ∧ pe.kind = .lexical
  | .syntactic => ∃ pe i t, e = .program pe ∧ pe.SyntaxFault src i t
  | .semantic => ∃ pe, e = .program pe ∧ pe.kind = .semantic ∧ pe.SemanticFault src left.symbols
  | .refused => ∃ reason values v, e = .output reason ∧ e.kind? = none ∧
      sink.emit (sink.deliver state values) v = (left.sink, some reason)

namespace Cursor.Reads

variable {src : Bytes} {ts : List Token} {d : Cursor} {t : Token}

/-- A token that is pulled next stands behind those that have been read. -/
theorem exists_tokens (h : (Cursor.start src).Reads ts d) (ht : d.next.1 = .ok t) :
    ∃ more, (tokenize src).tokens = ts ++ t :: more := by
  have hscan : tokenize src = ⟨ts ++ d.scan.tokens, d.scan.error⟩ := h.scan_eq
  rw [hscan]
  by_cases hk : t.kind = .eof
  · exact ⟨[], by rw [scan_of_eof ht hk]⟩
  · exact ⟨_, by rw [scan_of_token ht hk]⟩

theorem standsAt {e : ProgramError} (h : (Cursor.start src).Reads ts d) (ht : d.next.1 = .ok t)
    (hpos : e.pos = t.pos) : e.StandsAt src ts.length t := by
  obtain ⟨more, htokens⟩ := h.exists_tokens ht
  exact ⟨by simp [htokens], hpos⟩

end Cursor.Reads

/-- What a run has refused along the grammar is a fault of the source. -/
theorem Cursor.Refuses.fits {sink : Sink σ} {src : Bytes} {state : σ} {left : Machine σ}
    {ts : List Token} {d : Cursor} {place : Expected} {e : ProgramError}
    (hr : (Cursor.start src).Reads ts d)
    (hp : Expected.statement.along (ts.map (·.kind)) = some place)
    (h : d.Refuses left.symbols.store place e) :
    ∃ v : Verdict, v.Fits sink src state left (.program e) := by
  cases h with
  | unmatched ht => exact ⟨.lexical, _, rfl, rfl⟩
  | @unexpected _ t ht hk =>
    obtain ⟨more, htokens⟩ := hr.exists_tokens ht
    have htake : (tokenize src).tokens.take ts.length = ts := by rw [htokens, List.take_left]
    refine ⟨.syntactic, _, ts.length, t, rfl, hr.standsAt ht rfl, rfl, rfl, ?_, ?_, ?_⟩
    · rw [← describe_of_next ht]
      cases place <;> exact List.suffix_append _ _
    · rw [htake]
      exact Expected.viable_of_along hp
    · intro hviable
      rw [htake] at hviable
      obtain ⟨place', hplace, hallows⟩ := Expected.allows_of_viable hviable
      obtain rfl : place = place' := Option.some.inj (hp.symm.trans hplace)
      exact hk hallows
  | @undefined _ t ht hk hx =>
    refine ⟨.semantic, _, rfl, rfl, .undefined (hr.standsAt ht rfl) rfl hk rfl ?_⟩
    rw [← SymbolTable.lookup_store]
    exact Finmap.lookup_eq_none.mpr hx
  | @redefined t ht hk hx =>
    obtain ⟨v, hv⟩ := SymbolTable.mem_store.mp hx
    obtain ⟨front, hfront⟩ := Expected.exists_var_of_along hp
    obtain ⟨before, last, rfl, -, hlast⟩ := List.map_eq_append_iff.mp hfront
    obtain ⟨u, rfl, hu⟩ : ∃ u, last = [u] ∧ u.kind = .var := by
      simpa [List.map_eq_cons_iff] using hlast
    obtain ⟨more, htokens⟩ := hr.exists_tokens ht
    exact ⟨.semantic, _, rfl, rfl, .redefined (i := before.length) (u := u)
      ⟨by simp [htokens], rfl⟩ rfl hk (by simp [htokens]) hu rfl hv⟩
  | @overflow _ t ht hk hv =>
    exact ⟨.semantic, _, rfl, rfl, .overflow (hr.standsAt ht rfl) rfl hk rfl hv⟩

namespace Verdict

variable {sink : Sink σ} {src : Bytes} {state : σ} {left : Machine σ} {e : RunError}

def kind? : Verdict → Option ErrorKind
  | .lexical => some .lexical
  | .syntactic => some .syntactic
  | .semantic => some .semantic
  | .refused => none

theorem Fits.kind?_eq {v : Verdict} (h : v.Fits sink src state left e) : e.kind? = v.kind? := by
  cases v with
  | lexical =>
    obtain ⟨pe, rfl, hk⟩ := h
    exact congrArg some hk
  | syntactic =>
    obtain ⟨pe, i, t, rfl, hfault⟩ := h
    exact congrArg some hfault.kind
  | semantic =>
    obtain ⟨pe, rfl, hk, -⟩ := h
    exact congrArg some hk
  | refused =>
    obtain ⟨reason, values, v, -, hk, -⟩ := h
    exact hk

/-- Different verdicts give different classes. -/
theorem kind?_injective {v w : Verdict} (h : v.kind? = w.kind?) : v = w := by
  cases v <;> cases w <;> first | rfl | cases h

theorem Fits.unique {v w : Verdict} (hv : v.Fits sink src state left e)
    (hw : w.Fits sink src state left e) : v = w :=
  kind?_injective (hv.kind?_eq.symm.trans hw.kind?_eq)

end Verdict

/-- Exactly one verdict fits a run that has failed. It is lexical; or a token of the source, perhaps
its end, is quoted that the grammar does not allow behind the tokens before it; or a name is
undefined in the table that is left, or is defined in it and stands behind `var`, or a number is
greater than a variable can hold, and the report names it; or the sink has refused a value, for the
reason that the run gives. -/
theorem error_reports_sound (sink : Sink σ) (src : Bytes) (symbols : SymbolTable) (state : σ)
    (e : RunError) (h : (execute sink src symbols state).error = some e) :
    ∃! v : Verdict, v.Fits sink src state (execute sink src symbols state).machine e := by
  obtain ⟨v, hv⟩ : ∃ v : Verdict,
      v.Fits sink src state (execute sink src symbols state).machine e := by
    cases e with
    | program pe =>
      have hrun := proceed_of_error h
      obtain ⟨ts, d, place, hr, hp, hrefuses⟩ := Machine.proceed_refuses hrun
      exact hrefuses.fits hr hp
    | output reason =>
      rcases execute_follows sink src symbols state with
        ⟨hends, -⟩ | ⟨k, v, reason', -, hrefused, herr⟩
      · have herr := hends.error
        rw [h] at herr
        obtain ⟨pe, hpe⟩ := exists_program_error collector_reliable (by rw [← herr]; simp)
        rw [hpe] at herr
        cases herr
      · rw [h] at herr
        cases herr
        exact ⟨.refused, reason, _, v, rfl, rfl, hrefused.refused⟩
  exact ⟨v, hv, fun w hw => hw.unique hv⟩

/-- A name behind `var` that is in the table by then, a keyword where a semicolon should stand, and a
value that the sink does not take. -/
theorem error_reports_sound_three :
    let twice := utf8 "var a; print 7; var a;"
    let unended := utf8 "print 7 var a;"
    let redefined : RunError := .program ⟨.symbol (.redefined (utf8 "a")), ⟨1, 21, 20⟩⟩
    let unexpected : RunError :=
      .program ⟨.unexpected .semicolon ⟨.var, varWord⟩, ⟨1, 9, 8⟩⟩
    let run := fun src => execute Sink.collector src .empty []
    let stopped := execute (Sink.failingAt 1) twice .empty ⟨0, []⟩
    let full : RunError := .output (utf8 "sink full")
    ((run twice).error = some redefined ∧
      Verdict.semantic.Fits Sink.collector twice [] (run twice).machine redefined) ∧
    ((run unended).error = some unexpected ∧
      Verdict.syntactic.Fits Sink.collector unended [] (run unended).machine unexpected) ∧
    stopped.error = some full ∧
      Verdict.refused.Fits (Sink.failingAt 1) twice ⟨0, []⟩ stopped.machine full := by
  intro twice unended redefined unexpected run stopped full
  have htwice : (run twice).error = some redefined := by decide +kernel
  have hunended : (run unended).error = some unexpected := by decide +kernel
  have hstopped : stopped.error = some full := by decide +kernel
  obtain ⟨v, hv, -⟩ := error_reports_sound Sink.collector twice .empty [] redefined htwice
  obtain ⟨w, hw, -⟩ := error_reports_sound Sink.collector unended .empty [] unexpected hunended
  obtain ⟨u, hu, -⟩ := error_reports_sound (Sink.failingAt 1) twice .empty ⟨0, []⟩ full hstopped
  obtain rfl : .semantic = v := Verdict.kind?_injective hv.kind?_eq
  obtain rfl : .syntactic = w := Verdict.kind?_injective hw.kind?_eq
  obtain rfl : .refused = u := Verdict.kind?_injective hu.kind?_eq
  exact ⟨⟨htwice, hv⟩, ⟨hunended, hw⟩, hstopped, hu⟩

end StatementLang
