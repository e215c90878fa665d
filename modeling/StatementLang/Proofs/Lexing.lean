import Mathlib.Data.List.DropRight
import StatementLang.Lexer

/-!
# Texts and their lexemes

A text stands for a list of lexemes if it is these lexemes in order with blanks between them and
around them, and no lexeme could have been longer. This is stated without a scanner. Two texts can
be put side by side as long as no word or number runs across the seam, and a text can be cut at any
newline.
-/

namespace StatementLang

def Blank (w : Bytes) : Prop := ∀ b ∈ w, isBlank b = true

@[simp] theorem blank_nil : Blank [] := by simp [Blank]

@[simp] theorem blank_cons (b : UInt8) (w : Bytes) : Blank (b :: w) ↔ isBlank b ∧ Blank w := by
  simp [Blank]

@[simp] theorem blank_append (v w : Bytes) : Blank (v ++ w) ↔ Blank v ∧ Blank w := by
  simp only [Blank, List.mem_append]
  constructor
  · intro h
    exact ⟨fun b hb => h b (.inl hb), fun b hb => h b (.inr hb)⟩
  · rintro ⟨hv, hw⟩ b (hb | hb)
    · exact hv b hb
    · exact hw b hb

/-- Trimming the end of a text takes off only bytes of the given class. -/
theorem trimRight_append (p : UInt8 → Bool) (text : Bytes) :
    ∃ w, text = trimRight p text ++ w ∧ ∀ b ∈ w, p b := by
  refine ⟨(text.reverse.takeWhile p).reverse, ?_, ?_⟩
  · rw [trimRight, ← List.reverse_append, List.takeWhile_append_dropWhile, List.reverse_reverse]
  · intro b hb
    exact List.mem_takeWhile_imp (List.mem_reverse.mp hb)

abbrev Lexeme.eof : Lexeme := ⟨.eof, []⟩
abbrev Lexeme.semicolon : Lexeme := ⟨.semicolon, [59]⟩

/-- The lexemes that can stand in a text, which the end of input cannot. -/
inductive Lexeme.WellFormed : Lexeme → Prop
  | semicolon : WellFormed .semicolon
  | assign : WellFormed ⟨.assign, [61]⟩
  | var : WellFormed ⟨.var, varWord⟩
  | print : WellFormed ⟨.print, printWord⟩
  | ident {word : Bytes} (nonempty : word ≠ []) (lower : ∀ b ∈ word, isLower b)
      (notVar : ¬ varWord <+: word) (notPrint : ¬ printWord <+: word) : WellFormed ⟨.ident, word⟩
  | int {digits : Bytes} (nonempty : digits ≠ []) (digit : ∀ b ∈ digits, isDigit b) :
      WellFormed ⟨.int, digits⟩

/-- The bytes of words, numbers and punctuation. -/
def isSolid (b : UInt8) : Bool := b == 59 || b == 61 || isLower b || isDigit b

theorem not_blank_of_solid {b : UInt8} (h : isSolid b) : isBlank b = false := by
  grind [isSolid, isBlank, isLower, isDigit]

theorem not_digit_of_lower {b : UInt8} (h : isLower b) : isDigit b = false := by
  grind [isLower, isDigit]

theorem not_lower_of_digit {b : UInt8} (h : isDigit b) : isLower b = false := by
  grind [isLower, isDigit]

namespace Lexeme

theorem WellFormed.literal_ne_nil {l : Lexeme} (h : l.WellFormed) : l.literal ≠ [] := by
  cases h with
  | ident nonempty => exact nonempty
  | int nonempty => exact nonempty
  | _ => decide

theorem WellFormed.kind_ne_eof {l : Lexeme} (h : l.WellFormed) : l.kind ≠ .eof := by
  cases h <;> simp

theorem WellFormed.solid {l : Lexeme} (h : l.WellFormed) : ∀ b ∈ l.literal, isSolid b := by
  cases h with
  | ident _ lower => intro b hb; simp [isSolid, lower b hb]
  | int _ digit => intro b hb; simp [isSolid, digit b hb]
  | _ => simp [varWord, printWord, isSolid, isLower]

theorem WellFormed.not_blank {l : Lexeme} (h : l.WellFormed) : ¬ Blank l.literal := by
  intro hblank
  obtain ⟨b, hb⟩ := List.exists_mem_of_ne_nil _ h.literal_ne_nil
  have hbb := hblank b hb
  rw [not_blank_of_solid (h.solid b hb)] at hbb
  cases hbb

/-- All lexemes of a class that carries no text of the author's are the same. -/
theorem WellFormed.eq_of_kind {l k : Lexeme} (h : l.WellFormed) (hk : k.WellFormed)
    (he : l.kind = k.kind) (hn : k.kind.isLiteral = false) : l = k := by
  cases h <;> cases hk <;> simp_all [TokenKind.isLiteral]

/-- Skipping blanks stops at a lexeme. -/
theorem WellFormed.dropWhile_blank {l : Lexeme} (h : l.WellFormed) {w : Bytes} (hw : Blank w)
    (rest : Bytes) : (w ++ (l.literal ++ rest)).dropWhile isBlank = l.literal ++ rest := by
  rw [List.dropWhile_append_of_pos hw]
  cases hl : l.literal with
  | nil => exact absurd hl h.literal_ne_nil
  | cons b more =>
    have hb := not_blank_of_solid (h.solid b (by simp [hl]))
    simp [hb]

/-- Letters make a word longer and digits a number. -/
def continuedBy (l : Lexeme) (b : UInt8) : Bool :=
  match l.kind with
  | .ident => isLower b
  | .int => isDigit b
  | _ => false

@[simp] theorem continuedBy_ident (word : Bytes) (b : UInt8) :
    continuedBy ⟨.ident, word⟩ b = isLower b := rfl
@[simp] theorem continuedBy_int (digits : Bytes) (b : UInt8) :
    continuedBy ⟨.int, digits⟩ b = isDigit b := rfl
@[simp] theorem continuedBy_var (w : Bytes) (b : UInt8) : continuedBy ⟨.var, w⟩ b = false := rfl
@[simp] theorem continuedBy_print (w : Bytes) (b : UInt8) : continuedBy ⟨.print, w⟩ b = false := rfl
@[simp] theorem continuedBy_assign (w : Bytes) (b : UInt8) :
    continuedBy ⟨.assign, w⟩ b = false := rfl
@[simp] theorem continuedBy_semicolon (w : Bytes) (b : UInt8) :
    continuedBy ⟨.semicolon, w⟩ b = false := rfl

theorem not_continuedBy_of_blank {b : UInt8} (h : isBlank b) (l : Lexeme) :
    l.continuedBy b = false := by
  grind [continuedBy, isBlank, isLower, isDigit]

/-- The lexeme is as long as it can be in front of `rest`. -/
def EndsBefore (l : Lexeme) (rest : Bytes) : Prop := ∀ b ∈ rest.head?, l.continuedBy b = false

@[simp] theorem endsBefore_nil (l : Lexeme) : l.EndsBefore [] := by simp [EndsBefore]

@[simp] theorem endsBefore_cons (l : Lexeme) (b : UInt8) (rest : Bytes) :
    l.EndsBefore (b :: rest) ↔ l.continuedBy b = false := by simp [EndsBefore]

/-- A lexeme that a byte continues ends with a byte of the same class. -/
theorem WellFormed.last_of_continuedBy {l : Lexeme} (h : l.WellFormed) {b x : UInt8}
    (hb : l.continuedBy b) (hx : l.literal.getLast? = some x) :
    (isLower x ∧ isLower b) ∨ (isDigit x ∧ isDigit b) := by
  have hmem := List.mem_of_getLast? hx
  cases h with
  | ident _ lower => exact .inl ⟨lower x hmem, hb⟩
  | int _ digit => exact .inr ⟨digit x hmem, hb⟩
  | _ => cases hb

end Lexeme

/-- A word that starts a longer text ends before a byte of another class. -/
theorem prefix_of_prefix_append {p : UInt8 → Bool} {keyword word rest : Bytes}
    (hk : ∀ b ∈ keyword, p b) (hr : ∀ b ∈ rest.head?, p b = false)
    (h : keyword <+: word ++ rest) : keyword <+: word := by
  rcases List.prefix_or_prefix_of_prefix h (List.prefix_append word rest) with h' | ⟨more, rfl⟩
  · exact h'
  · cases more with
    | nil => simp
    | cons b more =>
      have hp : b :: more <+: rest := (List.prefix_append_right_inj word).mp h
      obtain ⟨tail, rfl⟩ := hp
      have hl := hk b (by simp)
      have hn := hr b (by simp)
      rw [hl] at hn
      cases hn

theorem isLower_varWord : ∀ b ∈ varWord, isLower b := by simp [varWord, isLower]

theorem isLower_printWord : ∀ b ∈ printWord, isLower b := by simp [printWord, isLower]

theorem not_keyword_of_ident {word rest : Bytes} (h : Lexeme.WellFormed ⟨.ident, word⟩)
    (he : Lexeme.EndsBefore ⟨.ident, word⟩ rest) :
    varWord.isPrefixOf (word ++ rest) = false ∧ printWord.isPrefixOf (word ++ rest) = false := by
  cases h with
  | ident _ _ notVar notPrint =>
    simp only [← Bool.not_eq_true, List.isPrefixOf_iff_prefix]
    exact ⟨fun h => notVar (prefix_of_prefix_append isLower_varWord he h),
      fun h => notPrint (prefix_of_prefix_append isLower_printWord he h)⟩

theorem takeWhile_of_stop {p : UInt8 → Bool} {word rest : Bytes} (hw : ∀ b ∈ word, p b)
    (hr : ∀ b ∈ rest.head?, p b = false) : (word ++ rest).takeWhile p = word := by
  rw [List.takeWhile_append_of_pos hw]
  cases rest with
  | nil => simp
  | cons b rest =>
    have hb := hr b (by simp)
    simp [hb]

theorem head?_dropWhile_stop (p : UInt8 → Bool) (text : Bytes) :
    ∀ b ∈ (text.dropWhile p).head?, p b = false := by
  intro b hb
  have h := List.head?_dropWhile_not p text
  rw [Option.mem_def.mp hb] at h
  exact h

/-- A lexeme that cannot be longer is the one found in front of what follows it. -/
theorem lexeme?_append {l : Lexeme} {rest : Bytes} (h : l.WellFormed) (he : l.EndsBefore rest) :
    lexeme? (l.literal ++ rest) = some l := by
  cases hl : h with
  | semicolon => simp [lexeme?]
  | assign => simp [lexeme?]
  | var => simp [lexeme?, varWord]
  | print => simp [lexeme?, varWord, printWord]
  | @ident word nonempty lower notVar notPrint =>
    have hk := not_keyword_of_ident h he
    have ht := takeWhile_of_stop lower he
    cases word with
    | nil => exact absurd rfl nonempty
    | cons b word =>
      have hb := lower b (by simp)
      have h59 : b ≠ 59 := by rintro rfl; exact absurd hb (by decide)
      have h61 : b ≠ 61 := by rintro rfl; exact absurd hb (by decide)
      simp only [List.cons_append, List.takeWhile_cons_of_pos hb, List.cons.injEq,
        true_and] at hk ht
      simp [lexeme?, h59, h61, hk, hb, ht]
  | @int digits nonempty digit =>
    have ht := takeWhile_of_stop digit he
    cases digits with
    | nil => exact absurd rfl nonempty
    | cons b digits =>
      have hb := digit b (by simp)
      have hl := not_lower_of_digit hb
      have h59 : b ≠ 59 := by rintro rfl; exact absurd hb (by decide)
      have h61 : b ≠ 61 := by rintro rfl; exact absurd hb (by decide)
      have hv : (118 : UInt8) ≠ b := by rintro rfl; exact absurd hb (by decide)
      have hp : (112 : UInt8) ≠ b := by rintro rfl; exact absurd hb (by decide)
      simp only [List.cons_append, List.takeWhile_cons_of_pos hb, List.cons.injEq, true_and] at ht
      simp [lexeme?, h59, h61, varWord, printWord, hv, hp, hl, hb, ht]

/-- What is found in front of a text cannot be longer. -/
theorem wellFormed_of_lexeme? {text : Bytes} {l : Lexeme} (h : lexeme? text = some l) :
    (text = [] ∧ l = .eof) ∨
      (l.WellFormed ∧ ∃ rest, text = l.literal ++ rest ∧ l.EndsBefore rest) := by
  cases text with
  | nil => exact .inl ⟨rfl, by simpa [lexeme?] using h.symm⟩
  | cons b rest =>
    refine .inr ?_
    simp only [lexeme?] at h
    split_ifs at h with h59 h61 hv hp hl hd <;> simp only [Option.some.injEq] at h <;> subst h
    · exact ⟨.semicolon, rest, by simp [h59], by simp [Lexeme.EndsBefore, Lexeme.continuedBy]⟩
    · exact ⟨.assign, rest, by simp [h61], by simp [Lexeme.EndsBefore, Lexeme.continuedBy]⟩
    · obtain ⟨rest', he⟩ := List.isPrefixOf_iff_prefix.mp hv
      exact ⟨.var, rest', he.symm, by simp [Lexeme.EndsBefore, Lexeme.continuedBy]⟩
    · obtain ⟨rest', he⟩ := List.isPrefixOf_iff_prefix.mp hp
      exact ⟨.print, rest', he.symm, by simp [Lexeme.EndsBefore, Lexeme.continuedBy]⟩
    · have hpre : b :: rest.takeWhile isLower <+: b :: rest :=
        (List.cons_prefix_cons).mpr ⟨rfl, List.takeWhile_prefix isLower⟩
      refine ⟨.ident (by simp) ?_ ?_ ?_, rest.dropWhile isLower, by simp, ?_⟩
      · intro c hc
        rcases List.mem_cons.mp hc with rfl | hc
        · exact hl
        · exact List.mem_takeWhile_imp hc
      · exact fun hk => hv (List.isPrefixOf_iff_prefix.mpr (hk.trans hpre))
      · exact fun hk => hp (List.isPrefixOf_iff_prefix.mpr (hk.trans hpre))
      · exact head?_dropWhile_stop isLower rest
    · refine ⟨.int (by simp) ?_, rest.dropWhile isDigit, by simp, ?_⟩
      · intro c hc
        rcases List.mem_cons.mp hc with rfl | hc
        · exact hd
        · exact List.mem_takeWhile_imp hc
      · exact head?_dropWhile_stop isDigit rest

/-- Whether a text starts with a lexeme is up to its first byte. -/
theorem lexeme?_eq_none_iff {b : UInt8} {rest : Bytes} :
    lexeme? (b :: rest) = none ↔ isSolid b = false := by
  constructor
  · grind [lexeme?, isSolid]
  · intro hb
    cases hl : lexeme? (b :: rest) with
    | none => rfl
    | some l =>
      rcases wellFormed_of_lexeme? hl with ⟨hnil, -⟩ | ⟨hwf, tail, htext, -⟩
      · cases hnil
      · obtain ⟨x, more, hlit⟩ := List.exists_cons_of_ne_nil hwf.literal_ne_nil
        rw [hlit] at htext
        obtain rfl : b = x := (List.cons.inj htext).1
        have hsolid := hwf.solid b (by simp [hlit])
        rw [hb] at hsolid
        cases hsolid

/-- A member of two lists in a row stands in one of them. -/
theorem append_eq_append_cons {α : Type} {u v a b : List α} {x : α} (h : u ++ v = a ++ x :: b) :
    (∃ u', u = a ++ x :: u' ∧ b = u' ++ v) ∨ (∃ a', a = u ++ a' ∧ v = a' ++ x :: b) := by
  rcases List.append_eq_append_iff.mp h with ⟨a', ha, hv⟩ | ⟨u', hu, hb⟩
  · exact .inr ⟨a', ha, hv⟩
  · cases u' with
    | nil => exact .inr ⟨[], by simpa using hu.symm, by simpa using hb.symm⟩
    | cons y u' =>
      simp only [List.cons_append, List.cons.injEq] at hb
      obtain ⟨rfl, rfl⟩ := hb
      exact .inl ⟨u', hu, rfl⟩

/-- The text is the lexemes in order, each as long as it can be, with blanks around them. -/
inductive Lexes : Bytes → List Lexeme → Prop
  | blank {w : Bytes} (hw : Blank w) : Lexes w []
  | lexeme {w rest : Bytes} {l : Lexeme} {ls : List Lexeme} (hw : Blank w) (hl : l.WellFormed)
      (he : l.EndsBefore rest) (hr : Lexes rest ls) : Lexes (w ++ (l.literal ++ rest)) (l :: ls)

namespace Lexes

variable {a b w : Bytes} {l : Lexeme} {ls ms : List Lexeme}

theorem wellFormed (h : Lexes a ls) : ∀ l ∈ ls, l.WellFormed := by
  induction h with
  | blank => simp
  | lexeme _ hl _ _ ih =>
    intro l hmem
    rcases List.mem_cons.mp hmem with rfl | hmem
    · exact hl
    · exact ih l hmem

theorem blank_or_solid (h : Lexes a ls) : ∀ b ∈ a, isBlank b ∨ isSolid b := by
  induction h with
  | blank hw => exact fun b hb => .inl (hw b hb)
  | lexeme hw hl _ _ ih =>
    intro b hb
    simp only [List.mem_append] at hb
    rcases hb with hb | hb | hb
    · exact .inl (hw b hb)
    · exact .inr (hl.solid b hb)
    · exact ih b hb

theorem blank_of_nil (h : Lexes a []) : Blank a := by
  cases h with
  | blank hw => exact hw

theorem prepend_blank (hw : Blank w) (h : Lexes a ls) : Lexes (w ++ a) ls := by
  cases h with
  | blank ha => exact .blank ((blank_append w a).mpr ⟨hw, ha⟩)
  | lexeme hv hl he hr =>
    rw [← List.append_assoc]
    exact .lexeme ((blank_append w _).mpr ⟨hw, hv⟩) hl he hr

/-- No word and no number runs from the end of one text into the other. -/
def Seam (a b : Bytes) : Prop :=
  ∀ x ∈ a.getLast?, ∀ y ∈ b.head?, ¬ (isLower x ∧ isLower y) ∧ ¬ (isDigit x ∧ isDigit y)

theorem Seam.of_head {y : UInt8} (hy : isLower y = false ∧ isDigit y = false) :
    Seam a (y :: b) := by
  intro x _ z hz
  obtain rfl : y = z := by simpa using hz
  simp [hy]

theorem Seam.of_last {x : UInt8} (hx : isLower x = false ∧ isDigit x = false) :
    Seam (a ++ [x]) b := by
  intro z hz y _
  obtain rfl : x = z := by simpa using hz
  simp [hx]

theorem Seam.of_nil : Seam [] b := by simp [Seam]

theorem append (ha : Lexes a ls) (hb : Lexes b ms) (hs : Seam a b) : Lexes (a ++ b) (ls ++ ms) := by
  induction ha with
  | blank hw => exact hb.prepend_blank hw
  | @lexeme w rest l ls hw hl he hr ih =>
    rw [List.append_assoc, List.append_assoc]
    refine .lexeme hw hl ?_ (ih ?_)
    · cases rest with
      | cons c rest => simpa using he
      | nil =>
        intro y hy
        rw [Bool.eq_false_iff]
        intro hc
        obtain ⟨x, hx⟩ := List.getLast?_isSome.mpr hl.literal_ne_nil |> Option.isSome_iff_exists.mp
        have hx' : x ∈ (w ++ (l.literal ++ [])).getLast? := by simp [hx]
        rcases hl.last_of_continuedBy hc hx with h | h
        · exact (hs x hx' y hy).1 h
        · exact (hs x hx' y hy).2 h
    · intro x hx
      refine hs x ?_
      simp only [List.getLast?_append, Option.mem_def] at hx ⊢
      simp [hx]

/-- A blank belongs to no lexeme, so a text can be cut there. -/
theorem cut_iff {x : UInt8} (hx : isBlank x) {ns : List Lexeme} :
    Lexes (a ++ x :: b) ns ↔ ∃ ls ms, ns = ls ++ ms ∧ Lexes a ls ∧ Lexes b ms := by
  constructor
  · intro h
    generalize ht : a ++ x :: b = text at h
    induction h generalizing a with
    | blank hw =>
      subst ht
      simp only [blank_append, blank_cons] at hw
      exact ⟨[], [], rfl, .blank hw.1, .blank hw.2.2⟩
    | @lexeme w rest l ls hw hl he hr ih =>
      rcases append_eq_append_cons ht.symm with ⟨v, rfl, rfl⟩ | ⟨a', rfl, ha'⟩
      · simp only [blank_append, blank_cons] at hw
        exact ⟨[], _, rfl, .blank hw.1, .lexeme hw.2.2 hl he hr⟩
      rcases append_eq_append_cons ha' with ⟨v, hv, -⟩ | ⟨a'', rfl, ha''⟩
      · have hsolid := hl.solid x (by simp [hv])
        rw [not_blank_of_solid hsolid] at hx
        cases hx
      · obtain ⟨ls', ms, rfl, hls, hms⟩ := ih ha''.symm
        refine ⟨l :: ls', ms, rfl, .lexeme hw hl ?_ hls, hms⟩
        cases a'' with
        | nil => simp
        | cons c a'' => simpa [ha''] using he
  · rintro ⟨ls, ms, rfl, ha, hb⟩
    have hx' : isLower x = false ∧ isDigit x = false := by
      grind [isBlank, isLower, isDigit]
    exact ha.append (hb.prepend_blank (w := [x]) (by simp [hx])) (.of_head hx')

theorem eq_nil_of_blank (h : Lexes a ls) (ha : Blank a) : ls = [] := by
  cases h with
  | blank => rfl
  | @lexeme w rest l ls hw hl => exact absurd (fun b hb => ha b (by simp [hb])) hl.not_blank

/-- Blanks at the end of a text do not matter. -/
theorem append_blank_iff (hw : Blank w) : Lexes (a ++ w) ls ↔ Lexes a ls := by
  cases w with
  | nil => simp
  | cons x w =>
    obtain ⟨hx, hw⟩ := (blank_cons x w).mp hw
    rw [cut_iff hx]
    constructor
    · rintro ⟨ls, ms, rfl, ha, hb⟩
      obtain rfl := hb.eq_nil_of_blank hw
      simpa using ha
    · exact fun ha => ⟨ls, [], by simp, ha, .blank hw⟩

/-- Blanks in front of a text do not matter. -/
theorem prepend_blank_iff (hw : Blank w) : Lexes (w ++ a) ls ↔ Lexes a ls := by
  refine ⟨fun h => ?_, .prepend_blank hw⟩
  induction w with
  | nil => exact h
  | cons x w ih =>
    obtain ⟨hx, hw⟩ := (blank_cons x w).mp hw
    obtain ⟨ks, ms, rfl, hks, hms⟩ := (cut_iff (a := []) hx).mp h
    obtain rfl := hks.eq_nil_of_blank blank_nil
    exact ih hw hms

/-- The last lexeme of a text has only blanks behind it. -/
theorem exists_last (h : Lexes a (ls ++ [l])) :
    ∃ front w, a = front ++ (l.literal ++ w) ∧ Blank w := by
  generalize hn : ls ++ [l] = ns at h
  induction h generalizing ls with
  | blank => simp at hn
  | @lexeme w rest k ks hw hl he hr ih =>
    cases ls with
    | nil =>
      obtain ⟨rfl, rfl⟩ : l = k ∧ [] = ks := by simpa using hn
      exact ⟨w, rest, rfl, hr.blank_of_nil⟩
    | cons k' ls =>
      obtain ⟨rfl, hks⟩ : k' = k ∧ ls ++ [l] = ks := by simpa using hn
      obtain ⟨front, v, rfl, hv⟩ := ih hks
      exact ⟨w ++ (k'.literal ++ front), v, by simp, hv⟩

end Lexes

end StatementLang
