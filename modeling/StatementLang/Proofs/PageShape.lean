import StatementLang.Proofs.CanonicalForm

/-!
# The shape of the canonical form

Tokens are laid out in lines: a semicolon ends its line, another token is followed by the next one
on the same line, and an empty line is left where the source leaves one behind a semicolon. What a
line looks like is kept when a token is put in front of it, and how lines follow each other is kept
when a line is put in front of them. So the shape of the whole text is shown from its end.
-/

namespace StatementLang

/-- The lines in which tokens are laid out. -/
inductive Laid : List Token → List Bytes → Prop
  | nil : Laid [] []
  | ends {t : Token} {ts : List Token} {ls : List Bytes} (ht : t.kind = .semicolon ∨ ts = [])
      (hgap : gapBehind t ts.head? = [newline]) (h : Laid ts ls) : Laid (t :: ts) (t.literal :: ls)
  | leaves {t : Token} {ts : List Token} {ls : List Bytes} (ht : t.kind = .semicolon)
      (hgap : gapBehind t ts.head? = [newline, newline]) (h : Laid ts ls) :
      Laid (t :: ts) (t.literal :: [] :: ls)
  | joins {t : Token} {ts : List Token} {l : Bytes} {ls : List Bytes} (ht : t.kind ≠ .semicolon)
      (h : Laid ts (l :: ls)) : Laid (t :: ts) ((t.literal ++ (gapBehind t ts.head? ++ l)) :: ls)

/-- A line with something on it: words and numbers with single spaces between them, and a semicolon
at its end only. -/
structure Row (l : Bytes) : Prop where
  solid : ∀ b ∈ l, isSolid b ∨ b = space
  first : ∃ b, l.head? = some b ∧ isSolid b
  last : ∃ b, l.getLast? = some b ∧ isSolid b
  single : ¬ [space, space] <:+: l
  semicolon : 59 ∉ l.dropLast

/-- The first and the last line are not empty, and neither are two neighbours; a line with something
on it ends with a semicolon, or is the last one. -/
structure Tidy (ls : List Bytes) : Prop where
  head : ∀ l ∈ ls.head?, l ≠ []
  last : ∀ l ∈ ls.getLast?, l ≠ []
  rows : ∀ l ∈ ls, l ≠ [] → Row l
  chain : ls.IsChain fun a b => (a = [] → b ≠ []) ∧ (a ≠ [] → a.getLast? = some 59)

theorem infix_of_infix_append {α : Type} {x : α} {xs a b : List α} (hx : x ∉ a)
    (h : x :: xs <:+: a ++ b) : x :: xs <:+: b := by
  induction a with
  | nil => exact h
  | cons y a ih =>
    rw [List.mem_cons, not_or] at hx
    rcases List.infix_cons_iff.mp h with hpre | hinf
    · exact absurd (List.cons_prefix_cons.mp hpre).1 hx.1
    · exact ih hx.2 hinf

/-- Only a semicolon has one in it. -/
theorem Lexeme.WellFormed.semicolon_notMem {l : Lexeme} (h : l.WellFormed)
    (hk : l.kind ≠ .semicolon) : 59 ∉ l.literal := by
  cases h with
  | semicolon => exact absurd rfl hk
  | ident _ lower => exact fun hmem => absurd (lower 59 hmem) (by decide)
  | int _ digit => exact fun hmem => absurd (digit 59 hmem) (by decide)
  | _ => decide

theorem Lexeme.WellFormed.space_notMem {l : Lexeme} (h : l.WellFormed) : space ∉ l.literal := by
  intro hmem
  have hsolid := h.solid space hmem
  cases hsolid

theorem Lexeme.WellFormed.literal_of_semicolon {l : Lexeme} (h : l.WellFormed)
    (hk : l.kind = .semicolon) : l.literal = [59] := by
  rw [h.eq_of_kind .semicolon hk rfl]

theorem Lexeme.WellFormed.getLast?_iff {l : Lexeme} (h : l.WellFormed) :
    l.literal.getLast? = some 59 ↔ l.kind = .semicolon := by
  constructor
  · intro hl
    rw [h.eq_semicolon hl]
  · intro hk
    rw [h.literal_of_semicolon hk]
    rfl

theorem getLast?_joined (w gap : Bytes) {l : Bytes} (hl : l ≠ []) :
    (w ++ (gap ++ l)).getLast? = l.getLast? := by
  rw [List.getLast?_append_of_ne_nil _ (by simp [hl]), List.getLast?_append_of_ne_nil _ hl]

namespace Row

variable {l : Bytes} {k : Lexeme}

theorem ne_nil (h : Row l) : l ≠ [] := by
  obtain ⟨b, hb, -⟩ := h.first
  rintro rfl
  cases hb

theorem head?_ne_space (h : Row l) : l.head? ≠ some space := by
  obtain ⟨b, hb, hsolid⟩ := h.first
  rw [hb]
  rintro ⟨⟩
  cases hsolid

theorem getLast?_ne_space (h : Row l) : l.getLast? ≠ some space := by
  obtain ⟨b, hb, hsolid⟩ := h.last
  rw [hb]
  rintro ⟨⟩
  cases hsolid

theorem newline_notMem (h : Row l) : newline ∉ l := by
  intro hmem
  exact absurd (h.solid newline hmem) (by decide)

/-- A lexeme is a line of its own. -/
theorem of_lexeme (hk : k.WellFormed) : Row k.literal := by
  obtain ⟨b, more, hb⟩ := List.exists_cons_of_ne_nil hk.literal_ne_nil
  obtain ⟨init, x, hx⟩ := List.eq_nil_or_concat' k.literal |>.resolve_left hk.literal_ne_nil
  refine ⟨fun c hc => .inl (hk.solid c hc), ⟨b, by simp [hb], hk.solid b (by simp [hb])⟩,
    ⟨x, by simp [hx], hk.solid x (by simp [hx])⟩, ?_, ?_⟩
  · exact fun hinf => hk.space_notMem (hinf.subset (by simp))
  · by_cases hs : k.kind = .semicolon
    · simp [hk.literal_of_semicolon hs]
    · exact fun hmem => hk.semicolon_notMem hs (List.dropLast_subset _ hmem)

/-- A word or a number is put in front of a line, with a space or nothing between them. -/
theorem prepend (h : Row l) (hk : k.WellFormed) (hs : k.kind ≠ .semicolon) {gap : Bytes}
    (hgap : gap = [] ∨ gap = [space]) : Row (k.literal ++ (gap ++ l)) := by
  have hword := of_lexeme hk
  have hne : gap ++ l ≠ [] := by simp [h.ne_nil]
  have hspaces : ∀ b ∈ gap, b = space := by rcases hgap with rfl | rfl <;> simp
  refine ⟨?_, ?_, ?_, ?_, ?_⟩
  · intro b hb
    simp only [List.mem_append] at hb
    rcases hb with hb | hb | hb
    · exact hword.solid b hb
    · exact .inr (hspaces b hb)
    · exact h.solid b hb
  · obtain ⟨b, hb, hsolid⟩ := hword.first
    exact ⟨b, by simp [hb], hsolid⟩
  · obtain ⟨b, hb, hsolid⟩ := h.last
    exact ⟨b, by simp [hb], hsolid⟩
  · intro hinf
    have hrest := infix_of_infix_append hk.space_notMem hinf
    rcases hgap with rfl | rfl
    · exact h.single hrest
    · rcases List.infix_cons_iff.mp hrest with hpre | hinf
      · obtain ⟨more, hmore⟩ := (List.cons_prefix_cons.mp hpre).2
        have hl : l = space :: more := hmore.symm
        exact h.head?_ne_space (by rw [hl]; rfl)
      · exact h.single hinf
  · rw [List.dropLast_append_of_ne_nil hne, List.dropLast_append_of_ne_nil h.ne_nil]
    intro hmem
    simp only [List.mem_append] at hmem
    rcases hmem with hmem | hmem | hmem
    · exact hk.semicolon_notMem hs hmem
    · exact absurd (hspaces 59 hmem) (by decide)
    · exact h.semicolon hmem

end Row

theorem gapBehind_of_word {t : Token} (ht : t.kind ≠ .semicolon) (u : Token) :
    gapBehind t (some u) = [] ∨ gapBehind t (some u) = [space] := by
  by_cases hu : u.kind = .semicolon <;> simp [ht, hu]

namespace Laid

variable {ts : List Token} {ls : List Bytes}

theorem eq_nil_iff (h : Laid ts ls) : ls = [] ↔ ts = [] := by
  cases h <;> simp

/-- Tokens can be laid out. -/
theorem exists_lines (ts : List Token) : ∃ ls, Laid ts ls := by
  induction ts with
  | nil => exact ⟨[], .nil⟩
  | cons t ts ih =>
    obtain ⟨ls, h⟩ := ih
    by_cases ht : t.kind = .semicolon
    · cases ts with
      | nil => exact ⟨_, .ends (.inl ht) rfl h⟩
      | cons u ts =>
        by_cases hfar : t.pos.line + 2 ≤ u.pos.line
        · exact ⟨_, .leaves ht (by simp [ht, hfar]) h⟩
        · exact ⟨_, .ends (.inl ht) (by simp [ht, hfar]) h⟩
    · cases ls with
      | nil =>
        obtain rfl := h.eq_nil_iff.mp rfl
        exact ⟨_, .ends (.inr rfl) rfl h⟩
      | cons l ls => exact ⟨_, .joins ht h⟩

/-- The lines are the spelling of the canonical form. -/
theorem spell_arranged (h : Laid ts ls) (hts : ∀ t ∈ ts, t.toLexeme.WellFormed) :
    spell (arranged ts hts) = ls.flatMap line := by
  induction h with
  | nil => rfl
  | ends ht hgap h ih => simp [hgap, ih, line]
  | leaves ht hgap h ih => simp [hgap, ih, line]
  | joins ht h ih => simp [ih, line]

theorem tidy (h : Laid ts ls) (hts : ∀ t ∈ ts, t.toLexeme.WellFormed) : Tidy ls := by
  induction h with
  | nil => exact ⟨by simp, by simp, by simp, .nil⟩
  | @ends t ts ls ht hgap h ih =>
    have htail := ih fun u hu => hts u (by simp [hu])
    have hrow := Row.of_lexeme (hts t (by simp))
    refine ⟨by simpa using hrow.ne_nil, ?_, ?_, ?_⟩
    · cases ls with
      | nil => simpa using hrow.ne_nil
      | cons l ls => simpa using htail.last
    · intro l hl hne
      rcases List.mem_cons.mp hl with rfl | hl
      · exact hrow
      · exact htail.rows l hl hne
    · refine List.isChain_cons.mpr ⟨fun l hl => ⟨fun hnil => absurd hnil hrow.ne_nil, fun _ => ?_⟩,
        htail.chain⟩
      rcases ht with ht | rfl
      · simp [(hts t (by simp)).literal_of_semicolon ht]
      · rw [h.eq_nil_iff.mpr rfl] at hl
        cases hl
  | @leaves t ts ls ht hgap h ih =>
    have htail := ih fun u hu => hts u (by simp [hu])
    have hlit := (hts t (by simp)).literal_of_semicolon ht
    have hne : ls ≠ [] := by
      intro hnil
      rw [h.eq_nil_iff.mp hnil] at hgap
      cases hgap
    obtain ⟨l, more, rfl⟩ := List.exists_cons_of_ne_nil hne
    have hl : l ≠ [] := htail.head l rfl
    refine ⟨by simp [hlit], by simpa using htail.last, ?_, ?_⟩
    · intro k hk hkne
      rcases List.mem_cons.mp hk with rfl | hk
      · exact .of_lexeme (hts t (by simp))
      · rcases List.mem_cons.mp hk with rfl | hk
        · exact absurd rfl hkne
        · exact htail.rows k hk hkne
    · simpa [hlit, hl] using htail.chain
  | @joins t ts l ls ht h ih =>
    have htail := ih fun u hu => hts u (by simp [hu])
    have hl : l ≠ [] := htail.head l rfl
    have hrow := htail.rows l (by simp) hl
    cases ts with
    | nil => cases h
    | cons u ts =>
      have hline := hrow.prepend (hts t (by simp)) ht (gapBehind_of_word ht u)
      refine ⟨by simpa using hline.ne_nil, ?_, ?_, ?_⟩
      · cases ls with
        | nil => simpa using hline.ne_nil
        | cons k ls => simpa using htail.last
      · intro k hk hkne
        rcases List.mem_cons.mp hk with rfl | hk
        · exact hline
        · exact htail.rows k (by simp [hk]) hkne
      · obtain ⟨hnext, hchain⟩ := List.isChain_cons.mp htail.chain
        refine List.isChain_cons.mpr ⟨?_, hchain⟩
        intro k hk
        refine ⟨fun hnil => absurd hnil hline.ne_nil, fun _ => ?_⟩
        exact (getLast?_joined _ _ hl).trans ((hnext k hk).2 hl)

theorem countP_semicolon (h : Laid ts ls) (hts : ∀ t ∈ ts, t.toLexeme.WellFormed) :
    ls.countP (·.getLast? = some 59) = ts.countP (·.kind = .semicolon) := by
  induction h with
  | nil => rfl
  | @ends t ts ls ht hgap h ih =>
    have htail := ih fun u hu => hts u (by simp [hu])
    rw [List.countP_cons, List.countP_cons, htail]
    simp only [(hts t (by simp)).getLast?_iff]
  | @leaves t ts ls ht hgap h ih =>
    have htail := ih fun u hu => hts u (by simp [hu])
    rw [List.countP_cons, List.countP_cons, List.countP_cons, htail]
    simp only [(hts t (by simp)).getLast?_iff]
    simp
  | @joins t ts l ls ht h ih =>
    have htail := ih fun u hu => hts u (by simp [hu])
    have hl : l ≠ [] := (h.tidy fun u hu => hts u (by simp [hu])).head l rfl
    rw [List.countP_cons, List.countP_cons, ← htail, List.countP_cons,
      getLast?_joined _ _ hl]
    simp [ht]

end Laid

/-- For each line that ends with a semicolon and has another line behind it, in order: whether that
line is empty. -/
def emptyBehind : List Bytes → List Bool
  | l :: k :: ls =>
    if l.getLast? = some 59 then decide (k = []) :: emptyBehind (k :: ls)
    else emptyBehind (k :: ls)
  | _ => []

@[simp] theorem emptyBehind_cons_nil (ls : List Bytes) :
    emptyBehind ([] :: ls) = emptyBehind ls := by
  cases ls <;> simp [emptyBehind]

theorem emptyBehind_congr {l k : Bytes} (h : l.getLast? = k.getLast?) (ls : List Bytes) :
    emptyBehind (l :: ls) = emptyBehind (k :: ls) := by
  cases ls <;> simp [emptyBehind, h]

/-- Empty lines are left behind the semicolons where the source leaves them. -/
theorem Laid.emptyBehind_eq {ts : List Token} {ls : List Bytes} (h : Laid ts ls)
    (hts : ∀ t ∈ ts, t.toLexeme.WellFormed) : emptyBehind ls = breaks ts := by
  induction h with
  | nil => rfl
  | @ends t ts ls ht hgap h ih =>
    have htail := ih fun u hu => hts u (by simp [hu])
    cases ts with
    | nil =>
      obtain rfl := h.eq_nil_iff.mpr rfl
      rfl
    | cons u ts =>
      have hk : t.kind = .semicolon := ht.resolve_right (by simp)
      obtain ⟨l, more, rfl⟩ := List.exists_cons_of_ne_nil (mt h.eq_nil_iff.mp (by simp))
      have hl : l ≠ [] := (h.tidy fun u hu => hts u (by simp [hu])).head l rfl
      have hnear : ¬ t.pos.line + 2 ≤ u.pos.line := by
        intro hfar
        simp [hk, hfar] at hgap
      rw [emptyBehind, if_pos ((hts t (by simp)).getLast?_iff.mpr hk),
        breaks_cons_of_semicolon hk (hts u (by simp)).kind_ne_eof, htail, decide_eq_false hl,
        decide_eq_false hnear]
  | @leaves t ts ls ht hgap h ih =>
    have htail := ih fun u hu => hts u (by simp [hu])
    cases ts with
    | nil => cases hgap
    | cons u ts =>
      have hfar : t.pos.line + 2 ≤ u.pos.line := by
        by_contra hnear
        simp [ht, hnear] at hgap
      rw [emptyBehind, if_pos ((hts t (by simp)).getLast?_iff.mpr ht), emptyBehind_cons_nil,
        breaks_cons_of_semicolon ht (hts u (by simp)).kind_ne_eof, htail, decide_eq_true rfl,
        decide_eq_true hfar]
  | @joins t ts l ls ht h ih =>
    have htail := ih fun u hu => hts u (by simp [hu])
    have hl : l ≠ [] := (h.tidy fun u hu => hts u (by simp [hu])).head l rfl
    cases ts with
    | nil => cases h
    | cons u ts =>
      rw [emptyBehind_congr (getLast?_joined _ _ hl), htail, breaks_cons_of_word ht]

namespace Tidy

variable {ls : List Bytes}

theorem newline_notMem (h : Tidy ls) : ∀ l ∈ ls, newline ∉ l := by
  intro l hl
  by_cases hne : l = []
  · simp [hne]
  · exact (h.rows l hl hne).newline_notMem

/-- Every byte is part of a lexeme, a space or a line end. -/
theorem mem_cases (h : Tidy ls) : ∀ b ∈ ls.flatMap line, isSolid b ∨ b = space ∨ b = newline := by
  intro b hb
  obtain ⟨l, hl, hbl⟩ := List.mem_flatMap.mp hb
  rcases List.mem_append.mp hbl with hbl | hbl
  · rcases (h.rows l hl (List.ne_nil_of_mem hbl)).solid b hbl with hsolid | hspace
    · exact .inl hsolid
    · exact .inr (.inl hspace)
  · exact .inr (.inr (List.mem_singleton.mp hbl))

theorem exists_head (h : Tidy ls) (hne : ls ≠ []) :
    ∃ b rest, ls.flatMap line = b :: rest ∧ b ≠ newline := by
  obtain ⟨l, more, rfl⟩ := List.exists_cons_of_ne_nil hne
  have hl := h.head l rfl
  obtain ⟨b, rest, rfl⟩ := List.exists_cons_of_ne_nil hl
  refine ⟨b, _, by rw [List.flatMap_cons]; rfl, ?_⟩
  rintro rfl
  exact h.newline_notMem (newline :: rest) (by simp) (by simp)

theorem exists_end (h : Tidy ls) (hne : ls ≠ []) :
    ∃ front b, ls.flatMap line = front ++ [b, newline] ∧ b ≠ newline := by
  obtain ⟨init, l, rfl⟩ := List.eq_nil_or_concat' ls |>.resolve_left hne
  have hl := h.last l (by simp)
  obtain ⟨front, b, rfl⟩ := List.eq_nil_or_concat' l |>.resolve_left hl
  refine ⟨init.flatMap line ++ front, b, by simp [line], ?_⟩
  rintro rfl
  exact h.newline_notMem (front ++ [newline]) (by simp) (by simp)

/-- A line with something on it is the last one, or ends with a semicolon. -/
theorem getLast?_of_mem_dropLast (h : Tidy ls) :
    ∀ l ∈ ls.dropLast, l ≠ [] → l.getLast? = some 59 := by
  obtain ⟨-, -, -, hchain⟩ := h
  induction ls with
  | nil => simp
  | cons a ls ih =>
    cases ls with
    | nil => simp
    | cons b ls =>
      obtain ⟨hab, hrest⟩ := List.isChain_cons_cons.mp hchain
      intro l hl hne
      rw [List.dropLast_cons_cons] at hl
      rcases List.mem_cons.mp hl with rfl | hl
      · exact hab.2 hne
      · exact ih hrest l hl hne

end Tidy

/-- A text does not start with a newline if its first line is not empty. -/
theorem not_newline_prefix {l : Bytes} (hn : newline ∉ l) (hne : l ≠ []) (ls : List Bytes)
    (xs : Bytes) : ¬ newline :: xs <+: (l :: ls).flatMap line := by
  obtain ⟨b, rest, rfl⟩ := List.exists_cons_of_ne_nil hne
  intro hpre
  have hb : newline = b := (List.cons_prefix_cons.mp hpre).1
  exact hn (by simp [hb])

/-- Where no two neighbours are empty, no three newlines follow each other. -/
theorem not_three_newlines {ls : List Bytes} (hn : ∀ l ∈ ls, newline ∉ l)
    (hchain : ls.IsChain fun a b => a = [] → b ≠ []) :
    ¬ [newline, newline, newline] <:+: ls.flatMap line := by
  induction ls with
  | nil => simp
  | cons l ls ih =>
    obtain ⟨-, hrest⟩ := List.isChain_cons.mp hchain
    intro hinf
    rw [List.flatMap_cons, line, List.append_assoc] at hinf
    rcases List.infix_cons_iff.mp (infix_of_infix_append (hn l (by simp)) hinf) with hpre | hinf
    · have htwo := (List.cons_prefix_cons.mp hpre).2
      cases ls with
      | nil => simp at htwo
      | cons k ls =>
        by_cases hk : k = []
        · subst hk
          have hone := (List.cons_prefix_cons.mp htwo).2
          cases ls with
          | nil => simp at hone
          | cons j ls =>
            have hj := (List.isChain_cons_cons.mp hrest).1 rfl
            exact not_newline_prefix (hn j (by simp)) hj ls [] hone
        · exact not_newline_prefix (hn k (by simp)) hk ls _ htwo
    · exact ih (fun k hk => hn k (by simp [hk])) hrest hinf

/-- The canonical form of a source is laid out in lines; without tokens there are none. -/
theorem exists_laid {src out : Bytes} (h : canonical src = .ok out) :
    ∃ (ts : List Token) (e : Token) (ls : List Bytes), (tokenize src).tokens = ts ++ [e] ∧
      e.kind = .eof ∧ (∀ t ∈ ts, t.toLexeme.WellFormed) ∧ (ts = [] ↔ Blank src) ∧ Laid ts ls ∧
      out = ls.flatMap line := by
  have hscan := tokenize_error_of_canonical h
  obtain ⟨ts, e, hts, htokens, he, hspell⟩ := canonical_eq_spell hscan
  obtain ⟨ls, hls⟩ := Laid.exists_lines ts
  have hlexes : Lexes src (ts.map Token.toLexeme) :=
    tokenize_lexemes_iff.mp ⟨hscan, by simp [Scan.lexemes, htokens, he]⟩
  refine ⟨ts, e, ls, htokens, by rw [he], hts, ⟨?_, ?_⟩, hls, ?_⟩
  · rintro rfl
    exact hlexes.blank_of_nil
  · intro hblank
    exact List.map_eq_nil_iff.mp (hlexes.eq_nil_of_blank hblank)
  · rw [← hls.spell_arranged hts]
    exact Except.ok.inj (h.symm.trans hspell)

/-- The shape of the canonical form. It is empty exactly if the source is blank. Else its first byte
is no newline, and it ends in exactly one. It has no tab, no carriage return and no three newlines
in a row. Its lines have no space at either end and no two spaces in a row; each of them but the
last is empty or ends with a semicolon, and a semicolon stands at the end of a line only, so there
are as many lines with one as there are semicolons. An empty line stands behind a semicolon with a
token behind it exactly if this token starts at least two lines below it in the source. -/
theorem canonical_shape {src out : Bytes} (h : canonical src = .ok out) :
    (out = [] ↔ Blank src) ∧
    ∃ lines : List Bytes, out = lines.flatMap line ∧ (∀ l ∈ lines, newline ∉ l) ∧
      (out ≠ [] → (∃ b rest, out = b :: rest ∧ b ≠ newline) ∧
        ∃ front b, out = front ++ [b, newline] ∧ b ≠ newline) ∧
      9 ∉ out ∧ 13 ∉ out ∧ ¬ [newline, newline, newline] <:+: out ∧
      (∀ l ∈ lines, l.head? ≠ some space ∧ l.getLast? ≠ some space ∧ ¬ [space, space] <:+: l) ∧
      (∀ l ∈ lines.dropLast, l ≠ [] → l.getLast? = some 59) ∧ (∀ l ∈ lines, 59 ∉ l.dropLast) ∧
      lines.countP (·.getLast? = some 59) =
        (tokenize src).tokens.countP (·.kind = .semicolon) ∧
      emptyBehind lines = breaks (tokenize src).tokens := by
  obtain ⟨ts, e, ls, htokens, he, hts, hblank, hlaid, rfl⟩ := exists_laid h
  have htidy := hlaid.tidy hts
  have hempty : ls.flatMap line = [] ↔ ls = [] := by
    cases ls <;> simp [line]
  refine ⟨by rw [hempty, hlaid.eq_nil_iff, hblank], ls, rfl, htidy.newline_notMem, ?_, ?_, ?_,
    ?_, ?_, htidy.getLast?_of_mem_dropLast, ?_, ?_, ?_⟩
  · intro hne
    have hls := mt hempty.mpr hne
    exact ⟨htidy.exists_head hls, htidy.exists_end hls⟩
  · exact fun hmem => absurd (htidy.mem_cases 9 hmem) (by decide)
  · exact fun hmem => absurd (htidy.mem_cases 13 hmem) (by decide)
  · exact not_three_newlines htidy.newline_notMem (htidy.chain.imp fun a b hab => hab.1)
  · intro l hl
    by_cases hne : l = []
    · simp [hne]
    · have hrow := htidy.rows l hl hne
      exact ⟨hrow.head?_ne_space, hrow.getLast?_ne_space, hrow.single⟩
  · intro l hl
    by_cases hne : l = []
    · simp [hne]
    · exact (htidy.rows l hl hne).semicolon
  · rw [hlaid.countP_semicolon hts, htokens, List.countP_append]
    simp [he]
  · rw [hlaid.emptyBehind_eq hts, htokens, breaks_concat he]

/-- Stray semicolons, a statement on several lines with empty ones in it, and an unfinished end. -/
theorem canonical_shape_stray :
    let src := utf8 "\n\nvar\n\n a ; ;\n\n\n =\t;\n12ab\n\n"
    let out := utf8 "var a;\n;\n\n=;\n12 ab\n"
    canonical src = .ok out ∧ breaks (tokenize src).tokens = [false, true, false] ∧
    ∃ lines : List Bytes, out = lines.flatMap line ∧ (∀ l ∈ lines, newline ∉ l) ∧
      lines.countP (·.getLast? = some 59) = 3 ∧ emptyBehind lines = [false, true, false] := by
  intro src out
  have h : canonical src = .ok out := by decide +kernel
  have hbreaks : breaks (tokenize src).tokens = [false, true, false] := by decide +kernel
  have hcount : (tokenize src).tokens.countP (·.kind = .semicolon) = 3 := by decide +kernel
  obtain ⟨-, lines, hlines, hnewline, -, -, -, -, -, -, -, hclosed, hempty⟩ := canonical_shape h
  exact ⟨h, hbreaks, lines, hlines, hnewline, hclosed.trans hcount, hempty.trans hbreaks⟩

end StatementLang
