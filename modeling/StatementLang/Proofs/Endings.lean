import StatementLang.Proofs.Bookkeeping
import StatementLang.Proofs.Verdicts

/-!
# How executed inputs end

A session executes its input when a line ends with a semicolon, whatever Unicode counts as white
space behind it. It keeps the line without its trailing blanks, and the scanner knows fewer blanks
still. None of this lets a run fail at the end of its text: either something in front of the end
matches no token, or the semicolon is the last token, and behind it the program may end.
-/

namespace StatementLang

theorem ofNat_eq_of_toNat {n : Nat} {b : UInt8} (h : n = b.toNat) : UInt8.ofNat n = b := by
  rw [h, UInt8.ofNat_toNat]

section Forms

variable {b c d e : UInt8}

theorem toNat_bounds_of_isTail (h : isTail c) : 0x80 ≤ c.toNat ∧ c.toNat ≤ 0xBF := by
  simpa [isTail, UInt8.le_iff_toNat_le] using h

/-- A second byte within its bounds continues a character that has no shorter form. -/
theorem toNat_bounds_of_second (hlo : (secondBounds b).1 ≤ c) (hhi : c ≤ (secondBounds b).2) :
    0x80 ≤ c.toNat ∧ c.toNat ≤ 0xBF ∧ (b.toNat = 0xE0 → 0xA0 ≤ c.toNat) ∧
      (b.toNat = 0xF0 → 0x90 ≤ c.toNat) := by
  rw [secondBounds] at hlo hhi
  split_ifs at hlo hhi
  all_goals simp only [UInt8.le_iff_toNat_le, ← UInt8.toNat_inj, UInt8.reduceToNat] at *
  all_goals omega

theorem encodeRune_two (hb : 0xC2 ≤ b.toNat ∧ b.toNat ≤ 0xDF) (hc : isTail c) :
    encodeRune ((b.toNat - 0xC0) * 64 + (c.toNat - 0x80)) = [b, c] := by
  obtain ⟨hclo, hchi⟩ := toNat_bounds_of_isTail hc
  rw [encodeRune, if_neg (by omega), if_pos (by omega), ofNat_eq_of_toNat (b := b) (by omega),
    ofNat_eq_of_toNat (b := c) (by omega)]

theorem encodeRune_three (hb : 0xE0 ≤ b.toNat ∧ b.toNat ≤ 0xEF) (hlo : (secondBounds b).1 ≤ c)
    (hhi : c ≤ (secondBounds b).2) (hd : isTail d) :
    encodeRune ((b.toNat - 0xE0) * 4096 + (c.toNat - 0x80) * 64 + (d.toNat - 0x80)) =
      [b, c, d] := by
  obtain ⟨hclo, hchi, hleast, -⟩ := toNat_bounds_of_second hlo hhi
  obtain ⟨hdlo, hdhi⟩ := toNat_bounds_of_isTail hd
  rw [encodeRune, if_neg (by omega), if_neg (by omega), if_pos (by omega),
    ofNat_eq_of_toNat (b := b) (by omega), ofNat_eq_of_toNat (b := c) (by omega),
    ofNat_eq_of_toNat (b := d) (by omega)]

theorem encodeRune_four (hb : 0xF0 ≤ b.toNat ∧ b.toNat ≤ 0xF4) (hlo : (secondBounds b).1 ≤ c)
    (hhi : c ≤ (secondBounds b).2) (hd : isTail d) (he : isTail e) :
    encodeRune ((b.toNat - 0xF0) * 262144 + (c.toNat - 0x80) * 4096 + (d.toNat - 0x80) * 64 +
      (e.toNat - 0x80)) = [b, c, d, e] := by
  obtain ⟨hclo, hchi, -, hleast⟩ := toNat_bounds_of_second hlo hhi
  obtain ⟨hdlo, hdhi⟩ := toNat_bounds_of_isTail hd
  obtain ⟨helo, hehi⟩ := toNat_bounds_of_isTail he
  rw [encodeRune, if_neg (by omega), if_neg (by omega), if_neg (by omega),
    ofNat_eq_of_toNat (b := b) (by omega), ofNat_eq_of_toNat (b := c) (by omega),
    ofNat_eq_of_toNat (b := d) (by omega), ofNat_eq_of_toNat (b := e) (by omega)]

end Forms

/-- The first rune of a text stands there with all its bytes. -/
theorem bytes_firstRune (b : UInt8) (rest : Bytes) :
    (firstRune b rest).1.bytes ++ rest.drop (firstRune b rest).2 = b :: rest := by
  have hinvalid : ∀ l : Bytes, (Rune.invalid b).bytes ++ l.drop 0 = b :: l := fun l => rfl
  unfold firstRune
  split_ifs with hone htwo hthree hfour
  · have hb : b.toNat < 0x80 := hone
    simp [hb]
  · split
    · split_ifs with hc
      · rw [Rune.bytes_char, encodeRune_two htwo hc]
        rfl
      · exact hinvalid _
    · exact hinvalid _
  · split
    · dsimp only
      split_ifs with hc
      · rw [Rune.bytes_char, encodeRune_three hthree hc.1 hc.2.1 hc.2.2]
        rfl
      · exact hinvalid _
    · exact hinvalid _
  · split
    · dsimp only
      split_ifs with hc
      · rw [Rune.bytes_char, encodeRune_four hfour hc.1 hc.2.1 hc.2.2.1 hc.2.2.2]
        rfl
      · exact hinvalid _
    · exact hinvalid _
  · exact hinvalid _

theorem flatMap_runesFrom (done : List Rune) (text : Bytes) :
    (runesFrom done text).flatMap Rune.bytes = done.reverse.flatMap Rune.bytes ++ text := by
  fun_induction runesFrom done text with
  | case1 done => simp
  | case2 done b rest ih =>
    rw [ih, List.reverse_cons, List.flatMap_append, List.flatMap_singleton, List.append_assoc,
      bytes_firstRune]

/-- A text is the bytes of its runes. -/
@[simp] theorem flatMap_runes (text : Bytes) : (runes text).flatMap Rune.bytes = text :=
  flatMap_runesFrom [] text

def WhiteSpace (w : Bytes) : Prop :=
  ∃ ws : List Rune, w = ws.flatMap Rune.bytes ∧ ∀ r ∈ ws, r.isSpace

/-- Trimming takes off white space only. -/
theorem trimSpace_append (text : Bytes) :
    ∃ front w, text = front ++ (trimSpace text ++ w) ∧ WhiteSpace w := by
  let inner := (runes text).dropWhile Rune.isSpace
  have hinner : inner = (inner.reverse.dropWhile Rune.isSpace).reverse ++
      (inner.reverse.takeWhile Rune.isSpace).reverse := by
    rw [← List.reverse_append, List.takeWhile_append_dropWhile, List.reverse_reverse]
  refine ⟨((runes text).takeWhile Rune.isSpace).flatMap Rune.bytes,
    (inner.reverse.takeWhile Rune.isSpace).reverse.flatMap Rune.bytes, ?_, _, rfl, ?_⟩
  · rw [trimSpace, ← List.flatMap_append, ← hinner, ← List.flatMap_append,
      List.takeWhile_append_dropWhile, flatMap_runes]
  · intro r hr
    exact List.mem_takeWhile_imp (List.mem_reverse.mp hr)

/-- A longer form ends with a byte of the upper half. -/
theorem exists_encodeRune_eq {c : Nat} (h : 0x80 ≤ c) :
    ∃ a x, encodeRune c = a ++ [x] ∧ ¬ x < 0x80 := by
  have hlast : ¬ UInt8.ofNat (0x80 + c % 64) < 0x80 := by
    intro hlt
    have hlt : (UInt8.ofNat (0x80 + c % 64)).toNat < 0x80 := hlt
    rw [UInt8.toNat_ofNat'] at hlt
    omega
  rw [encodeRune, if_neg (by omega)]
  split_ifs
  · exact ⟨[_], _, rfl, hlast⟩
  · exact ⟨[_, _], _, rfl, hlast⟩
  · exact ⟨[_, _, _], _, rfl, hlast⟩

/-- A byte of the lower half is a rune of its own. -/
theorem Rune.eq_nil_of_bytes {r : Rune} {a : Bytes} {x : UInt8} (h : r.bytes = a ++ [x])
    (hx : x < 0x80) : a = [] := by
  have hone : ∀ b, [b] = a ++ [x] → a = [] := by
    intro b hb
    simpa using congrArg List.length hb
  cases r with
  | invalid b => exact hone b h
  | char c =>
    rw [bytes_char] at h
    by_cases hc : c < 0x80
    · rw [encodeRune_of_lt hc] at h
      exact hone _ h
    · obtain ⟨a', y, hy, hlt⟩ := exists_encodeRune_eq (Nat.le_of_not_lt hc)
      obtain ⟨-, hxy⟩ := List.append_inj' (hy.symm.trans h) rfl
      obtain rfl : y = x := by simpa using hxy
      exact absurd hx hlt

theorem WhiteSpace.append {v w : Bytes} (hv : WhiteSpace v) (hw : WhiteSpace w) :
    WhiteSpace (v ++ w) := by
  obtain ⟨vs, rfl, hvs⟩ := hv
  obtain ⟨ws, rfl, hws⟩ := hw
  refine ⟨vs ++ ws, by rw [List.flatMap_append], fun r hr => ?_⟩
  rcases List.mem_append.mp hr with hr | hr
  · exact hvs r hr
  · exact hws r hr

@[simp] theorem trimRight_concat (p : UInt8 → Bool) (text : Bytes) (x : UInt8) :
    trimRight p (text ++ [x]) = if p x then trimRight p text else text ++ [x] := by
  by_cases hx : p x <;> simp [trimRight, hx]

/-- Where a line is cut at its end, what is left of its white space is white space. -/
theorem WhiteSpace.exists_trimRight {p : UInt8 → Bool} (hp : ∀ b, p b → b < 0x80) {x : UInt8}
    (hx : p x = false) (a : Bytes) {w : Bytes} (hw : WhiteSpace w) :
    ∃ v, trimRight p (a ++ x :: w) = a ++ x :: v ∧ WhiteSpace v := by
  obtain ⟨ws, rfl, hws⟩ := hw
  induction ws using List.reverseRecOn with
  | nil => exact ⟨[], by simp [hx], [], rfl, by simp⟩
  | append_singleton ws r ih =>
    have hfront : ∀ r ∈ ws, r.isSpace := fun r hr => hws r (by simp [hr])
    rw [List.flatMap_append, List.flatMap_singleton]
    rcases List.eq_nil_or_concat' r.bytes with hnil | ⟨c, y, hc⟩
    · rw [hnil, List.append_nil]
      exact ih hfront
    · have hsplit : a ++ x :: (ws.flatMap Rune.bytes ++ r.bytes) =
          (a ++ x :: (ws.flatMap Rune.bytes ++ c)) ++ [y] := by simp [hc]
      rw [hsplit, trimRight_concat]
      by_cases hy : p y
      · obtain rfl := Rune.eq_nil_of_bytes hc (hp y hy)
        rw [if_pos hy, List.append_nil]
        exact ih hfront
      · rw [if_neg hy, ← hsplit]
        exact ⟨_, rfl, ws ++ [r], by simp, hws⟩

/-- White space that can stand in a text that scans is blank. -/
theorem Rune.blank_of_isSpace {r : Rune} (hr : r.isSpace) (h : Scannable r.bytes) :
    Blank r.bytes := by
  cases r with
  | invalid b => cases hr
  | char c =>
    by_cases hc : c < 0x80
    · have hcode : (UInt8.ofNat c).toNat = c :=
        UInt8.toNat_ofNat_of_lt' (by simp [UInt8.size]; omega)
      have hbytes : (char c).bytes = [UInt8.ofNat c] := by simp [hc]
      rw [hbytes] at h ⊢
      have hb := h (UInt8.ofNat c) (by simp)
      have hblank := isSpace_ofByte hb
      rw [ofByte, hcode, hr] at hblank
      simp [← hblank]
    · obtain ⟨a, x, hx, hlt⟩ := exists_encodeRune_eq (Nat.le_of_not_lt hc)
      have hmem : x ∈ (char c).bytes := by simp [hx]
      exact absurd (ascii_of_scannable (h x hmem)) hlt

theorem WhiteSpace.blank {w : Bytes} (hw : WhiteSpace w) (h : Scannable w) : Blank w := by
  obtain ⟨ws, rfl, hws⟩ := hw
  intro b hb
  obtain ⟨r, hr, hbr⟩ := List.mem_flatMap.mp hb
  have hscan : Scannable r.bytes := fun c hc => h c (List.mem_flatMap.mpr ⟨r, hr, hc⟩)
  exact Rune.blank_of_isSpace (hws r hr) hscan b hbr

/-- The text ends with a semicolon and white space behind it. -/
def EndsStatement (text : Bytes) : Prop := ∃ front w, text = front ++ 59 :: w ∧ WhiteSpace w

/-- If such a text scans, its last lexeme is the semicolon. -/
theorem EndsStatement.exists_semicolon {text : Bytes} {ls : List Lexeme} (h : EndsStatement text)
    (hl : Lexes text ls) : ∃ front, ls = front ++ [.semicolon] := by
  obtain ⟨a, w, rfl, hw⟩ := h
  have hblank : Blank w := hw.blank fun b hb => hl.blank_or_solid b (by simp [hb])
  obtain ⟨front, l, rfl, hwf, hlast⟩ := hl.getLast?_of_last (by decide) hblank
  exact ⟨front, by rw [hwf.eq_semicolon hlast]⟩

/-- The error blames a token of the source, but not its end, or a byte that starts none. -/
def ProgramError.BeforeEnd (src : Bytes) (e : ProgramError) : Prop :=
  e.kind = .lexical ∨ ∃ t ∈ (tokenize src).tokens, t.kind ≠ .eof ∧
    e.cause.blamed? = some t.toLexeme ∧ e.pos = t.pos

/-- Behind a semicolon a statement can start, or the program end. -/
theorem Expected.eq_statement_of_along {ks : List TokenKind} {first place : Expected}
    (h : first.along (ks ++ [.semicolon]) = some place) : place = .statement := by
  rw [along_append] at h
  obtain ⟨next, -, hnext⟩ := Option.bind_eq_some_iff.mp h
  cases next <;> cases hnext
  rfl

theorem Cursor.Reads.lexes_of_eof {src : Bytes} {ts : List Token} {d : Cursor} {t : Token}
    (h : (Cursor.start src).Reads ts d) (ht : d.next.1 = .ok t) (hk : t.kind = .eof) :
    Lexes src (ts.map Token.toLexeme) := by
  obtain ⟨text, hpass, hlex⟩ := h.lexes
  have hrest : Blank d.rest := List.dropWhile_eq_nil_iff.mp (rest_of_eof ht hk).2
  have hsrc : src = text ++ d.rest := hpass.rest
  rw [hsrc, Lexes.append_blank_iff hrest]
  exact hlex

variable {σ : Type}

/-- A run of a text that ends a statement does not fail at its end. -/
theorem EndsStatement.beforeEnd {src : Bytes} (h : EndsStatement src) {sink : Sink σ}
    {symbols : SymbolTable} {state : σ} {e : ProgramError}
    (he : (execute sink src symbols state).error = some (.program e)) : e.BeforeEnd src := by
  obtain ⟨ts, d, place, hr, hp, hrefuses⟩ := Machine.proceed_refuses (proceed_of_error he)
  have hblamed : ∀ t, d.next.1 = .ok t → t.kind ≠ .eof → e.cause.blamed? = some t.toLexeme →
      e.pos = t.pos → e.BeforeEnd src := by
    intro t ht hk hb hpos
    obtain ⟨more, htokens⟩ := hr.exists_tokens ht
    exact .inr ⟨t, by simp [htokens], hk, hb, hpos⟩
  cases hrefuses with
  | unmatched _ => exact .inl rfl
  | @unexpected _ t ht hk =>
    refine hblamed t ht (fun heof => ?_) rfl rfl
    obtain ⟨front, hfront⟩ := h.exists_semicolon (hr.lexes_of_eof ht heof)
    have hkinds : ts.map (·.kind) = front.map Lexeme.kind ++ [.semicolon] := by
      simpa [Function.comp_def] using congrArg (List.map Lexeme.kind) hfront
    rw [hkinds] at hp
    obtain rfl := Expected.eq_statement_of_along hp
    exact hk (by simp [heof])
  | @undefined _ t ht hk _ =>
    exact hblamed t ht (by simp [hk]) (by rw [Cause.blamed?, ← hk]) rfl
  | @redefined t ht hk _ =>
    exact hblamed t ht (by simp [hk]) (by rw [Cause.blamed?, ← hk]) rfl
  | @overflow _ t ht hk _ =>
    exact hblamed t ht (by simp [hk]) (by rw [Cause.blamed?, ← hk]) rfl

theorem Session.endsStatement_collected {text : Bytes} (h : Closes text) (s : Session) :
    EndsStatement (s.collected text) := by
  obtain ⟨front, w, htext, hw⟩ := trimSpace_append text
  obtain ⟨init, hinit⟩ := List.getLast?_eq_some_iff.mp h
  have hline : text = (front ++ init) ++ 59 :: w := by
    rw [hinit] at htext
    simpa using htext
  have hascii : ∀ b, isTrailing b → b < 0x80 := by
    intro b hb
    exact ascii_of_scannable (.inl (isBlank_of_isTrailing hb))
  obtain ⟨v, hv, hspace⟩ := hw.exists_trimRight hascii (x := 59) (by decide) (front ++ init)
  have hnewline : WhiteSpace [newline] := ⟨[.char 10], by decide, by decide⟩
  refine ⟨s.pending ++ (front ++ init), v ++ [newline], ?_, hspace.append hnewline⟩
  rw [collected, line, hline, hv]
  simp

theorem Session.endsStatement_of_deed {text src : Bytes} {first : Nat} {s : Session}
    (h : s.deed text = .execute src first) : EndsStatement src := by
  rw [deed] at h
  split_ifs at h with h1 h2 h3
  injection h with hsrc
  rw [← hsrc]
  exact s.endsStatement_collected h3

/-- Over any inputs only texts that end a statement are executed. -/
theorem Ledger.endsStatement_after (colored : Bool) (inputs : List SessionInput) :
    ∀ x ∈ (after colored inputs).executions, EndsStatement x.1 := by
  induction inputs using List.reverseRecOn with
  | nil => simp [after, fresh]
  | append_singleton inputs i ih =>
    rw [after_concat]
    cases i with
    | line text =>
      simp only [step]
      split
      · rename_i src first hdeed
        intro x hx
        rcases List.mem_append.mp hx with hx | hx
        · exact ih x hx
        · rw [List.mem_singleton.mp hx]
          exact Session.endsStatement_of_deed hdeed
      · exact ih
    | interrupt => exact ih
    | bell => exact ih

namespace Session

variable {colored : Bool} {text : Bytes} {s : Session}

/-- What a session writes to its error output answers a command or reports a program error. -/
theorem err_handle_cases (h : (s.handle colored text).1.err ≠ []) :
    (∃ command, s.deed text = .obey command) ∨
    ∃ src first e, s.deed text = .execute src first ∧
      (StatementLang.execute Sink.writer src s.symbols []).error = some (.program e) ∧
      (s.handle colored text).1.err =
        line (reportText colored (e.pos.line + (first - 1 : Nat)) e.pos.column e) := by
  rw [handle_eq_perform] at h ⊢
  cases hd : s.deed text with
  | skip => simp [hd, perform, silent] at h
  | keep => simp [hd, perform, silent] at h
  | obey command => exact .inl ⟨command, rfl⟩
  | execute src first =>
    rw [hd] at h
    obtain ⟨e, he⟩ := exists_program_error writer_reliable fun hnone =>
      h (err_execute_of_none (s := (s.extend text).cancel) hnone)
    exact .inr ⟨src, first, e, rfl, he, err_execute_of_program (s := (s.extend text).cancel) he⟩

end Session

/-- No input of a session fails at its end. Over any lines and interrupts, every text that is
executed ends with a semicolon and white space, and wherever a run of such a text fails because of
it, the error is lexical or blames a token other than the end of input. So does everything that the
session reports, answers to commands aside. -/
theorem session_never_fails_at_end (colored : Bool) (inputs : List SessionInput) :
    (∀ src first, (src, first) ∈ (Ledger.after colored inputs).executions →
      EndsStatement src ∧
      ∀ {σ : Type} (sink : Sink σ) (symbols : SymbolTable) (state : σ) (e : ProgramError),
        (execute sink src symbols state).error = some (.program e) → e.BeforeEnd src) ∧
    ∀ text,
      let s := Session.after colored inputs
      let reply := (s.handle colored text).1
      reply.err ≠ [] → (∃ command, s.deed text = .obey command) ∨
        ∃ src first e, s.deed text = .execute src first ∧ EndsStatement src ∧
          (execute Sink.writer src s.symbols []).error = some (.program e) ∧
          reply.err = line (Session.reportText colored (e.pos.line + (first - 1 : Nat))
            e.pos.column e) ∧
          e.BeforeEnd src := by
  constructor
  · intro src first hmem
    have hends : EndsStatement src := Ledger.endsStatement_after colored inputs (src, first) hmem
    exact ⟨hends, fun sink symbols state e he => hends.beforeEnd he⟩
  · intro text s reply herr
    rcases Session.err_handle_cases herr with hcommand | ⟨src, first, e, hdeed, he, hreport⟩
    · exact .inl hcommand
    · have hends := Session.endsStatement_of_deed hdeed
      exact .inr ⟨src, first, e, hdeed, hends, he, hreport, hends.beforeEnd he⟩

/-- A no-break space behind the semicolon stays in the text. The run fails in front of it, at the
semicolon that stands where a value should. -/
theorem session_never_fails_at_end_space :
    let inputs : List SessionInput := [.line (utf8 "print "), .line (utf8 ";\u00a0\t")]
    let src := utf8 "print\n;\u00a0\n"
    let e : ProgramError := ⟨.unexpected .expression .semicolon, ⟨2, 1, 6⟩⟩
    (src, 1) ∈ (Ledger.after false inputs).executions ∧ (tokenize src).error ≠ none ∧
    (execute Sink.writer src .empty []).error = some (.program e) ∧
    EndsStatement src ∧ e.BeforeEnd src := by
  intro inputs src e
  have hmem : (src, 1) ∈ (Ledger.after false inputs).executions := by decide +kernel
  have herror : (execute Sink.writer src .empty []).error = some (.program e) := by decide +kernel
  obtain ⟨hends, hruns⟩ := (session_never_fails_at_end false inputs).1 src 1 hmem
  exact ⟨hmem, by decide +kernel, herror, hends, hruns Sink.writer .empty [] e herror⟩

end StatementLang
