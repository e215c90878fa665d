import StatementLang.Proofs.Layout
import StatementLang.Proofs.Spelling
import StatementLang.Proofs.Trimming

/-!
# What the canonical form keeps

The canonical form of a source spells the source's own lexemes, with blanks that are determined by
neighbouring tokens: a space, a line end behind a semicolon, or an empty line where the source
leaves one. A spelling can be read back, so two sources have the same canonical form exactly if
they have the same lexemes and leave the same lines empty behind their semicolons. The canonical
form leaves empty what its source does, so it is its own canonical form.
-/

namespace StatementLang

/-- For each semicolon with another token behind it, in order: whether that token starts at least
two lines below. -/
def breaks : List Token → List Bool
  | s :: t :: ts =>
    if s.kind = .semicolon ∧ t.kind ≠ .eof then
      decide (s.pos.line + 2 ≤ t.pos.line) :: breaks (t :: ts)
    else breaks (t :: ts)
  | _ => []

@[simp] theorem breaks_singleton (t : Token) : breaks [t] = [] := rfl
@[simp] theorem breaks_cons_eof (s : Token) {e : Token} (he : e.kind = .eof) (ts : List Token) :
    breaks (s :: e :: ts) = breaks (e :: ts) := by simp [breaks, he]
@[simp] theorem breaks_cons_of_semicolon {s t : Token} (hs : s.kind = .semicolon)
    (ht : t.kind ≠ .eof) (ts : List Token) :
    breaks (s :: t :: ts) = decide (s.pos.line + 2 ≤ t.pos.line) :: breaks (t :: ts) := by
  simp [breaks, hs, ht]
@[simp] theorem breaks_cons_of_word {s : Token} (hs : s.kind ≠ .semicolon) (t : Token)
    (ts : List Token) : breaks (s :: t :: ts) = breaks (t :: ts) := by simp [breaks, hs]

/-- The end of input is on no line. -/
theorem breaks_concat {ts : List Token} {e : Token} (he : e.kind = .eof) :
    breaks (ts ++ [e]) = breaks ts := by
  induction ts with
  | nil => rfl
  | cons t ts ih =>
    cases ts with
    | nil => simp [he]
    | cons u ts =>
      rw [List.cons_append] at ih
      rw [List.cons_append, List.cons_append, breaks, ih, breaks]

/-- The blanks that the canonical form has behind a token in front of the next one, if any. -/
def gapBehind (t : Token) : Option Token → Bytes
  | none => [newline]
  | some u =>
    if t.kind = .semicolon then
      if t.pos.line + 2 ≤ u.pos.line then [newline, newline] else [newline]
    else if u.kind = .semicolon then [] else [space]

@[simp] theorem gapBehind_none (t : Token) : gapBehind t none = [newline] := rfl
@[simp] theorem gapBehind_semicolon {t : Token} (ht : t.kind = .semicolon) (u : Token) :
    gapBehind t (some u) =
      if t.pos.line + 2 ≤ u.pos.line then [newline, newline] else [newline] := by
  simp [gapBehind, ht]
@[simp] theorem gapBehind_word {t : Token} (ht : t.kind ≠ .semicolon) (u : Token) :
    gapBehind t (some u) = if u.kind = .semicolon then [] else [space] := by simp [gapBehind, ht]

theorem blank_gapBehind (t : Token) (next : Option Token) : Blank (gapBehind t next) := by
  cases next with
  | none => simp [isBlank, newline]
  | some u =>
    simp only [gapBehind]
    repeat' split
    all_goals simp [isBlank, newline, space]

def arranged : (ts : List Token) → (∀ t ∈ ts, t.toLexeme.WellFormed) → List Spaced
  | [], _ => []
  | t :: ts, h =>
    ⟨t.toLexeme, gapBehind t ts.head?, h t (by simp), blank_gapBehind t ts.head?⟩ ::
      arranged ts fun u hu => h u (by simp [hu])

@[simp] theorem arranged_nil (h : ∀ t : Token, t ∈ [] → t.toLexeme.WellFormed) :
    arranged [] h = [] := rfl
@[simp] theorem arranged_cons (t : Token) (ts : List Token)
    (h : ∀ u ∈ t :: ts, u.toLexeme.WellFormed) :
    arranged (t :: ts) h =
      ⟨t.toLexeme, gapBehind t ts.head?, h t (by simp), blank_gapBehind t ts.head?⟩ ::
        arranged ts fun u hu => h u (by simp [hu]) := rfl

/-- Only in front of a semicolon nothing stands between two tokens. -/
theorem separated_arranged {ts : List Token} (h : ∀ t ∈ ts, t.toLexeme.WellFormed) :
    Separated (arranged ts h) := by
  induction ts with
  | nil => exact .nil
  | cons t ts ih =>
    refine List.isChain_cons.mpr ⟨?_, ih fun u hu => h u (by simp [hu])⟩
    cases ts with
    | nil => simp
    | cons u ts =>
      intro y hy hgap
      obtain rfl := Option.some.inj hy
      simp only [List.head?_cons, gapBehind] at hgap
      split_ifs at hgap with ht hline hu
      simp [Lexeme.RunsInto, hu]

namespace Page

/-- The page ends with the token: with what is written up to there, and with a fresh line if it is
a semicolon. -/
structure Behind (p : Page) (t : Token) (body : Bytes) : Prop where
  written : p.written = body ++ if t.kind = .semicolon then [newline] else []
  fresh : p.fresh = decide (t.kind = .semicolon)
  lastLine : t.kind = .semicolon → p.lastLine = t.pos.line
  last : ∃ front x, body = front ++ [x] ∧ isSolid x

variable {p : Page} {t u : Token} {body : Bytes}

theorem exists_last_solid (ht : t.toLexeme.WellFormed) (front : Bytes) :
    ∃ front' x, front ++ t.literal = front' ++ [x] ∧ isSolid x := by
  obtain ⟨init, x, hlit⟩ := List.eq_nil_or_concat' t.literal |>.resolve_left ht.literal_ne_nil
  exact ⟨front ++ init, x, by simp [hlit], ht.solid x (by simp [hlit])⟩

theorem blank_put_behind (ht : t.toLexeme.WellFormed) :
    (Page.blank.put (· + 1) t).Behind t t.literal := by
  refine ⟨?_, ?_, ?_, exists_last_solid ht []⟩
  · rw [written_put]
    simp [gap, blank, Page.written]
  · by_cases hk : t.kind = .semicolon <;> simp [put, hk]
  · intro hk
    simp [put, hk]

/-- Putting a token on a page adds the blanks between it and the token before. -/
theorem Behind.put (h : p.Behind t body) (ht : 1 ≤ t.pos.line) (hu : u.toLexeme.WellFormed) :
    (p.put (· + 1) u).Behind u (body ++ gapBehind t (some u) ++ u.literal) := by
  have hgap : (if t.kind = .semicolon then [newline] else []) ++ p.gap (· + 1) u =
      gapBehind t (some u) := by
    by_cases hk : t.kind = .semicolon
    · have hpos : 0 < t.pos.line := ht
      have hline : t.pos.line + 1 < u.pos.line ↔ t.pos.line + 2 ≤ u.pos.line := by omega
      simp only [gapBehind_semicolon hk, gap, h.fresh, h.lastLine hk, hk, hpos, hline, decide_true,
        if_true, true_and]
      split <;> rfl
    · simp [gap, h.fresh, hk]
  refine ⟨?_, ?_, ?_, exists_last_solid hu _⟩
  · rw [written_put, h.written, ← hgap]
    simp
  · by_cases hk : u.kind = .semicolon <;> simp [Page.put, hk]
  · intro hk
    simp [Page.put, hk]

/-- The text of a page ends with its last token and a line end. -/
theorem Behind.text (h : p.Behind t body) : p.text = body ++ [newline] := by
  obtain ⟨front, x, hbody, hx⟩ := h.last
  have hxn : (x == newline) = false := by
    rw [beq_eq_false_iff_ne]
    rintro rfl
    exact absurd hx (by decide)
  have htrim : trimRight (· == newline) p.written = body := by
    rw [h.written, hbody, List.append_assoc]
    refine trimRight_of_last (p := (· == newline)) hxn front fun b hb => ?_
    split at hb <;> simp_all
  have hne : body.isEmpty = false := by simp [hbody]
  rw [Page.written] at htrim
  simp [Page.text, htrim, hne, line]

/-- The text of a page spells the tokens put on it. -/
theorem text_foldl_put {ts : List Token} (h : p.Behind t body) (ht : 1 ≤ t.pos.line)
    (hts : ∀ t ∈ ts, t.toLexeme.WellFormed) (hline : ∀ t ∈ ts, 1 ≤ t.pos.line) :
    (ts.foldl (Page.put (· + 1)) p).text =
      body ++ gapBehind t ts.head? ++ spell (arranged ts hts) := by
  induction ts generalizing p t body with
  | nil =>
    rw [List.foldl_nil, h.text]
    simp
  | cons u ts ih =>
    have hput := h.put ht (hts u (by simp))
    rw [List.foldl_cons, ih hput (hline u (by simp)) (fun v hv => hts v (by simp [hv]))
      (fun v hv => hline v (by simp [hv]))]
    simp

end Page

/-- The canonical layout of tokens is a spelling. -/
theorem layout_eq_spell {ts : List Token} {e : Token} (hts : ∀ t ∈ ts, t.toLexeme.WellFormed)
    (hline : ∀ t ∈ ts, 1 ≤ t.pos.line) (he : e.kind = .eof) :
    layout (ts ++ [e]) = spell (arranged ts hts) := by
  rw [layout, layoutWith_concat _ hts he]
  cases ts with
  | nil => rfl
  | cons t ts =>
    rw [List.foldl_cons, Page.text_foldl_put (Page.blank_put_behind (hts t (by simp)))
      (hline t (by simp)) (fun v hv => hts v (by simp [hv])) (fun v hv => hline v (by simp [hv]))]
    simp

/-- The blanks behind a token show whether the next one starts far below, and nothing else. -/
theorem gapBehind_eq_iff {t u : Token} {ts us : List Token} (h : t.toLexeme = u.toLexeme)
    (hmap : ts.map Token.toLexeme = us.map Token.toLexeme)
    (hts : ∀ t ∈ ts, t.toLexeme.WellFormed) :
    (gapBehind t ts.head? = gapBehind u us.head? ∧ breaks ts = breaks us) ↔
      breaks (t :: ts) = breaks (u :: us) := by
  cases ts with
  | nil =>
    obtain rfl : us = [] := by simpa using hmap.symm
    simp
  | cons t' ts =>
    cases us with
    | nil => simp at hmap
    | cons u' us =>
      have hkind : t.kind = u.kind := by rw [h]
      have hkind' : t'.kind = u'.kind := by rw [(List.cons.inj hmap).1]
      have hne : u'.kind ≠ .eof := hkind' ▸ (hts t' (by simp)).kind_ne_eof
      by_cases hs : u.kind = .semicolon
      · by_cases hl : t.pos.line + 2 ≤ t'.pos.line <;>
          by_cases hr : u.pos.line + 2 ≤ u'.pos.line <;>
          simp [hkind, hkind', hs, hne, hl, hr]
      · simp [hkind, hkind', hs]

theorem arranged_eq_iff {ts us : List Token} (hts : ∀ t ∈ ts, t.toLexeme.WellFormed)
    (hus : ∀ t ∈ us, t.toLexeme.WellFormed) :
    arranged ts hts = arranged us hus ↔
      ts.map Token.toLexeme = us.map Token.toLexeme ∧ breaks ts = breaks us := by
  induction ts generalizing us with
  | nil => cases us <;> simp
  | cons t ts ih =>
    have hts' : ∀ t ∈ ts, t.toLexeme.WellFormed := fun v hv => hts v (by simp [hv])
    cases us with
    | nil => simp
    | cons u us =>
      rw [arranged_cons, arranged_cons, List.cons.injEq, Spaced.ext_iff, ih, List.map_cons,
        List.map_cons, List.cons.injEq]
      constructor
      · rintro ⟨⟨hlex, hgap⟩, hmap, hbreaks⟩
        exact ⟨⟨hlex, hmap⟩, (gapBehind_eq_iff hlex hmap hts').mp ⟨hgap, hbreaks⟩⟩
      · rintro ⟨⟨hlex, hmap⟩, h⟩
        obtain ⟨hgap, hbreaks⟩ := (gapBehind_eq_iff hlex hmap hts').mpr h
        exact ⟨⟨hlex, hgap⟩, hmap, hbreaks⟩

/-- The tokens of a spelling are those of a text: their lexemes can stand there, and they are on its
lines. -/
theorem mem_tokensAt_start {w : Bytes} {xs : List Spaced} {t : Token}
    (h : t ∈ tokensAt .start w xs) : t.toLexeme.WellFormed ∧ 1 ≤ t.pos.line := by
  obtain ⟨i, hi⟩ := List.mem_iff_getElem?.mp h
  rw [getElem?_tokensAt] at hi
  obtain ⟨x, -, rfl⟩ := Option.map_eq_some_iff.mp hi
  exact ⟨x.wellFormed, Position.line_pos_afterText (Int.le_refl 1) _⟩

/-- The canonical form of a source spells its tokens. -/
theorem canonical_eq_spell {src : Bytes} (h : (tokenize src).error = none) :
    ∃ (ts : List Token) (e : Token) (hts : ∀ t ∈ ts, t.toLexeme.WellFormed),
      (tokenize src).tokens = ts ++ [e] ∧ e.toLexeme = .eof ∧
      canonical src = .ok (spell (arranged ts hts)) := by
  obtain ⟨w, xs, -, ⟨-, hscan⟩ | ⟨b, rest, -, -, -, hscan⟩⟩ := tokenize_spelled src
  · have hts : ∀ t ∈ tokensAt .start w xs, t.toLexeme.WellFormed :=
      fun t ht => (mem_tokensAt_start ht).1
    refine ⟨_, _, hts, by rw [hscan], rfl, ?_⟩
    rw [canonical_of_scan h, hscan, layout_eq_spell hts (fun t ht => (mem_tokensAt_start ht).2) rfl]
  · rw [hscan] at h
    cases h

/-- Two sources have the same canonical form exactly if they have the same lexemes and agree, for
every semicolon with a token behind it, on whether that token starts at least two lines below. -/
theorem canonical_eq_iff {a b : Bytes} (ha : (tokenize a).error = none)
    (hb : (tokenize b).error = none) :
    ∃ x y, canonical a = .ok x ∧ canonical b = .ok y ∧
      (x = y ↔ (tokenize a).lexemes = (tokenize b).lexemes ∧
        breaks (tokenize a).tokens = breaks (tokenize b).tokens) := by
  obtain ⟨ts, e, hts, hta, he, hx⟩ := canonical_eq_spell ha
  obtain ⟨us, f, hus, htb, hf, hy⟩ := canonical_eq_spell hb
  refine ⟨_, _, hx, hy, ?_⟩
  -- the end of input has one lexeme and no line, so both sides are about the tokens before it
  have hlexemes : (tokenize a).lexemes = (tokenize b).lexemes ↔
      ts.map Token.toLexeme = us.map Token.toLexeme := by
    simp [Scan.lexemes, hta, htb, he, hf]
  rw [hlexemes, hta, htb, breaks_concat (by rw [he]), breaks_concat (by rw [hf]),
    ← arranged_eq_iff hts hus]
  constructor
  · intro h
    exact (spell_injective blank_nil blank_nil (separated_arranged hts) (separated_arranged hus)
      (congrArg ([] ++ ·) h)).2
  · exact congrArg spell

/-- An empty line behind a semicolon is kept, and one inside a statement is not. -/
theorem canonical_eq_iff_lines :
    let a := utf8 "var a;\n\nprint\n\na;"
    let b := utf8 "var\na\n;\n\n\n print a ; "
    let c := utf8 "var a;\nprint a;"
    ((tokenize a).error = none ∧ (tokenize b).error = none ∧ (tokenize c).error = none) ∧
    canonical a = canonical b ∧ canonical a ≠ canonical c := by
  intro a b c
  have ha : (tokenize a).error = none := by decide +kernel
  have hb : (tokenize b).error = none := by decide +kernel
  have hc : (tokenize c).error = none := by decide +kernel
  obtain ⟨x, y, hx, hy, hab⟩ := canonical_eq_iff ha hb
  obtain ⟨x', z, hx', hz, hac⟩ := canonical_eq_iff ha hc
  refine ⟨⟨ha, hb, hc⟩, ?_, ?_⟩
  · rw [hx, hy, hab.mpr (by decide +kernel)]
  · rw [hx', hz]
    intro h
    have hsame := hac.mp (Except.ok.inj h)
    exact absurd hsame (by decide +kernel)

theorem map_lexeme_arranged {ts : List Token} (hts : ∀ t ∈ ts, t.toLexeme.WellFormed) :
    (arranged ts hts).map Spaced.lexeme = ts.map Token.toLexeme := by
  induction ts with
  | nil => rfl
  | cons t ts ih => rw [arranged_cons, List.map_cons, List.map_cons, ih]

/-- Behind a semicolon the canonical form goes down two lines where the source does so or goes down
further, and else one line. -/
theorem count_gapBehind {t u : Token} (ht : t.kind = .semicolon) :
    (gapBehind t (some u)).count newline = if t.pos.line + 2 ≤ u.pos.line then 2 else 1 := by
  rw [gapBehind_semicolon ht]
  split <;> rfl

/-- The line ends of the canonical form are found again where they were put. -/
theorem breaks_tokensAt_arranged {ts : List Token} (hts : ∀ t ∈ ts, t.toLexeme.WellFormed)
    (p : Position) (w : Bytes) : breaks (tokensAt p w (arranged ts hts)) = breaks ts := by
  induction ts generalizing p w with
  | nil => rfl
  | cons t ts ih =>
    cases ts with
    | nil => rfl
    | cons u ts =>
      have hrest := ih (fun v hv => hts v (by simp [hv])) (p.afterText (w ++ t.literal))
        (gapBehind t (some u))
      rw [arranged_cons, tokensAt_cons] at hrest
      rw [arranged_cons, arranged_cons, tokensAt_cons, tokensAt_cons, breaks, breaks]
      by_cases hk : t.kind = .semicolon ∧ u.kind ≠ .eof
      · have hlit : t.literal = [59] := congrArg Lexeme.literal
          ((hts t (by simp)).eq_of_kind .semicolon hk.1 rfl)
        have hline : (p.afterText w).line + 2 ≤
            ((p.afterText (w ++ t.literal)).afterText (gapBehind t (some u))).line ↔
            t.pos.line + 2 ≤ u.pos.line := by
          rw [← Position.afterText_append, Position.line_afterText, Position.line_afterText,
            List.count_append, List.count_append, count_gapBehind hk.1, hlit]
          split <;> simp [newline] <;> omega
        rw [if_pos hk, if_pos hk]
        exact congrArg₂ List.cons (decide_eq_decide.mpr hline) hrest
      · rw [if_neg hk, if_neg hk]
        exact hrest

/-- Only a source without a lexical error has a canonical form. -/
theorem tokenize_error_of_canonical {src out : Bytes} (h : canonical src = .ok out) :
    (tokenize src).error = none := by
  rw [canonical] at h
  split at h
  · rename_i he
    rw [he]
  · cases h

theorem exists_arranged {src out : Bytes} (h : canonical src = .ok out) :
    ∃ (ts : List Token) (hts : ∀ t ∈ ts, t.toLexeme.WellFormed), out = spell (arranged ts hts) := by
  obtain ⟨ts, e, hts, -, -, hspell⟩ := canonical_eq_spell (tokenize_error_of_canonical h)
  exact ⟨ts, hts, Except.ok.inj (h.symm.trans hspell)⟩

/-- An arrangement of tokens is laid out as it stands: the second layout has the tokens of the first
one, with the lines that the first one gave them. -/
theorem canonical_spell_arranged {ts : List Token} (hts : ∀ t ∈ ts, t.toLexeme.WellFormed) :
    canonical (spell (arranged ts hts)) = .ok (spell (arranged ts hts)) := by
  let us := tokensAt .start [] (arranged ts hts)
  have hus : ∀ u ∈ us, u.toLexeme.WellFormed := fun u hu => (mem_tokensAt_start hu).1
  have hscan : tokenize (spell (arranged ts hts)) = ⟨us ++ [⟨.eof, _⟩], none⟩ :=
    tokenize_of_separated blank_nil (separated_arranged hts)
  have hsame : arranged us hus = arranged ts hts := (arranged_eq_iff hus hts).mpr
    ⟨(map_tokensAt .start [] _).trans (map_lexeme_arranged hts),
      breaks_tokensAt_arranged hts .start []⟩
  rw [canonical_of_scan (by rw [hscan]), hscan,
    layout_eq_spell hus (fun u hu => (mem_tokensAt_start hu).2) rfl, hsame]

/-- The canonical form of a source is its own canonical form. -/
theorem canonical_idempotent {src out : Bytes} (h : canonical src = .ok out) :
    canonical out = .ok out := by
  obtain ⟨ts, hts, rfl⟩ := exists_arranged h
  exact canonical_spell_arranged hts

/-- Stray semicolons, a statement on several lines, a run of empty lines and an unfinished end. -/
theorem canonical_idempotent_stray :
    let src := utf8 "\n\nvar\n\n\na;;\n\n\n\n=;\n; 12ab\n\n"
    let out := utf8 "var a;\n;\n\n=;\n;\n12 ab\n"
    canonical src = .ok out ∧ canonical out = .ok out := by
  intro src out
  have h : canonical src = .ok out := by decide +kernel
  exact ⟨h, canonical_idempotent h⟩

end StatementLang
