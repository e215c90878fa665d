import Mathlib.Data.List.Chain
import StatementLang.Proofs.Pulling

/-!
# Spellings

Every text is spelled in one way: blanks, then lexemes with the blanks behind each of them, and
then nothing or a byte that starts no token. Scanning finds these lexemes and places each of them
behind what is spelled before it. Conversely a spelling is found again exactly if no neighbours
without blanks between them run into each other, and then no other spelling has the same text.
-/

namespace StatementLang

/-- A lexeme in a text and the blanks behind it. -/
@[ext] structure Spaced where
  lexeme : Lexeme
  gap : Bytes
  wellFormed : lexeme.WellFormed
  blank : Blank gap

def spell (xs : List Spaced) : Bytes := xs.flatMap fun x => x.lexeme.literal ++ x.gap

@[simp] theorem spell_nil : spell [] = [] := rfl

@[simp] theorem spell_cons (x : Spaced) (xs : List Spaced) :
    spell (x :: xs) = x.lexeme.literal ++ (x.gap ++ spell xs) := by
  simp [spell]

@[simp] theorem spell_append (xs ys : List Spaced) : spell (xs ++ ys) = spell xs ++ spell ys := by
  simp [spell]

/-- With nothing between them a word runs into what starts with a letter, and a number into a
number. -/
def Lexeme.RunsInto (l k : Lexeme) : Prop :=
  (l.kind = .ident ∧ (k.kind = .ident ∨ k.kind = .var ∨ k.kind = .print)) ∨
    (l.kind = .int ∧ k.kind = .int)

instance (l k : Lexeme) : Decidable (l.RunsInto k) := inferInstanceAs (Decidable (_ ∨ _))

/-- Neighbours that would run into each other have blanks between them. -/
def Separated (xs : List Spaced) : Prop :=
  xs.IsChain fun x y => x.gap = [] → ¬ x.lexeme.RunsInto y.lexeme

instance (xs : List Spaced) : Decidable (Separated xs) :=
  inferInstanceAs (Decidable (List.IsChain _ xs))

/-- The first byte of a lexeme tells whether the one in front of it runs into it. -/
theorem Lexeme.WellFormed.continuedBy_iff {k : Lexeme} (hk : k.WellFormed) {b : UInt8}
    (hb : b ∈ k.literal.head?) (l : Lexeme) : l.continuedBy b ↔ l.RunsInto k := by
  have hmem := List.mem_of_mem_head? hb
  cases hk with
  | ident _ lower =>
    have hl := lower b hmem
    cases hkind : l.kind <;> simp [continuedBy, RunsInto, hkind, hl, not_digit_of_lower hl]
  | int _ digit =>
    have hd := digit b hmem
    cases hkind : l.kind <;> simp [continuedBy, RunsInto, hkind, hd, not_lower_of_digit hd]
  | _ =>
    obtain rfl := Option.some.inj hb
    cases hkind : l.kind <;> simp [continuedBy, RunsInto, hkind] <;> decide

/-- A lexeme of a spelling cannot be longer exactly if it does not run into the next one. -/
theorem Spaced.endsBefore_iff (x : Spaced) (xs : List Spaced) :
    x.lexeme.EndsBefore (x.gap ++ spell xs) ↔
      ∀ y ∈ xs.head?, x.gap = [] → ¬ x.lexeme.RunsInto y.lexeme := by
  cases hg : x.gap with
  | cons b gap =>
    have hb : isBlank b := x.blank b (by simp [hg])
    simp [Lexeme.not_continuedBy_of_blank hb]
  | nil =>
    cases xs with
    | nil => simp
    | cons y ys =>
      obtain ⟨b, more, hlit⟩ := List.exists_cons_of_ne_nil y.wellFormed.literal_ne_nil
      have hb := y.wellFormed.continuedBy_iff (b := b) (by simp [hlit]) x.lexeme
      simp [hlit, ← hb]

@[simp] theorem separated_cons_iff {x : Spaced} {xs : List Spaced} :
    Separated (x :: xs) ↔ x.lexeme.EndsBefore (x.gap ++ spell xs) ∧ Separated xs := by
  rw [x.endsBefore_iff, Separated, List.isChain_cons]
  rfl

theorem not_blank_spell_cons (w : Bytes) (x : Spaced) (xs : List Spaced) :
    ¬ Blank (w ++ spell (x :: xs)) := by
  intro h
  exact x.wellFormed.not_blank fun b hb => h b (by simp [hb])

/-- A text has at most one spelling whose lexemes are kept apart. -/
theorem spell_injective {w v : Bytes} {xs ys : List Spaced} (hw : Blank w) (hv : Blank v)
    (hxs : Separated xs) (hys : Separated ys) (h : w ++ spell xs = v ++ spell ys) :
    w = v ∧ xs = ys := by
  induction xs generalizing w v ys with
  | nil =>
    cases ys with
    | nil => exact ⟨by simpa using h, rfl⟩
    | cons y ys =>
      rw [spell_nil, List.append_nil] at h
      exact absurd (h ▸ hw) (not_blank_spell_cons v y ys)
  | cons x xs ih =>
    cases ys with
    | nil =>
      rw [spell_nil, List.append_nil] at h
      exact absurd (h ▸ hv) (not_blank_spell_cons w x xs)
    | cons y ys =>
      obtain ⟨hx, hxs⟩ := separated_cons_iff.mp hxs
      obtain ⟨hy, hys⟩ := separated_cons_iff.mp hys
      rw [spell_cons, spell_cons] at h
      have hdrop := congrArg (List.dropWhile isBlank) h
      rw [x.wellFormed.dropWhile_blank hw, y.wellFormed.dropWhile_blank hv] at hdrop
      have hlex : x.lexeme = y.lexeme := by
        have hfound := lexeme?_append x.wellFormed hx
        rw [hdrop, lexeme?_append y.wellFormed hy] at hfound
        exact (Option.some.inj hfound).symm
      rw [hlex] at h hdrop
      obtain ⟨hgap, rfl⟩ := ih x.blank y.blank hxs hys (List.append_cancel_left hdrop)
      rw [hdrop] at h
      exact ⟨List.append_cancel_right h, congrArg (· :: xs) (Spaced.ext hlex hgap)⟩

/-- A text that starts with blanks and a lexeme has this lexeme first exactly if it ends there. -/
theorem Lexes.cons_iff {w rest : Bytes} {l : Lexeme} {ls : List Lexeme} (hw : Blank w)
    (hl : l.WellFormed) :
    Lexes (w ++ (l.literal ++ rest)) (l :: ls) ↔ l.EndsBefore rest ∧ Lexes rest ls := by
  constructor
  · intro h
    generalize ht : w ++ (l.literal ++ rest) = text at h
    cases h with
    | @lexeme v tail _ _ hv _ he hr =>
      have hdrop := congrArg (List.dropWhile isBlank) ht
      rw [hl.dropWhile_blank hw, hl.dropWhile_blank hv] at hdrop
      obtain rfl := List.append_cancel_left hdrop
      exact ⟨he, hr⟩
  · rintro ⟨he, hr⟩
    exact .lexeme hw hl he hr

/-- A spelling stands for its lexemes exactly if they are kept apart. -/
theorem lexes_spell_iff {w : Bytes} (hw : Blank w) (xs : List Spaced) :
    Lexes (w ++ spell xs) (xs.map Spaced.lexeme) ↔ Separated xs := by
  induction xs generalizing w with
  | nil =>
    rw [spell_nil, List.append_nil]
    exact ⟨fun _ => .nil, fun _ => .blank hw⟩
  | cons x xs ih =>
    rw [spell_cons, List.map_cons, Lexes.cons_iff hw x.wellFormed, ih x.blank, separated_cons_iff]

/-- The tokens of a spelling with blanks `w` before it that starts at `p`. -/
def tokensAt (p : Position) (w : Bytes) : List Spaced → List Token
  | [] => []
  | x :: xs => ⟨x.lexeme, p.afterText w⟩ :: tokensAt (p.afterText (w ++ x.lexeme.literal)) x.gap xs

@[simp] theorem tokensAt_nil (p : Position) (w : Bytes) : tokensAt p w [] = [] := rfl
@[simp] theorem tokensAt_cons (p : Position) (w : Bytes) (x : Spaced) (xs : List Spaced) :
    tokensAt p w (x :: xs) =
      ⟨x.lexeme, p.afterText w⟩ :: tokensAt (p.afterText (w ++ x.lexeme.literal)) x.gap xs := rfl

/-- A token of a spelling stands behind what is spelled before it. -/
theorem getElem?_tokensAt (p : Position) (w : Bytes) (xs : List Spaced) (i : Nat) :
    (tokensAt p w xs)[i]? =
      xs[i]?.map fun x => ⟨x.lexeme, p.afterText (w ++ spell (xs.take i))⟩ := by
  induction xs generalizing p w i with
  | nil => rfl
  | cons x xs ih =>
    cases i with
    | zero => simp
    | succ i => simp [ih, ← Position.afterText_append]

@[simp] theorem map_tokensAt (p : Position) (w : Bytes) (xs : List Spaced) :
    (tokensAt p w xs).map Token.toLexeme = xs.map Spaced.lexeme := by
  induction xs generalizing p w with
  | nil => rfl
  | cons x xs ih => simp [ih]

/-- The first token starts behind the blanks, and the others do so later. -/
theorem offset_le_of_mem_tokensAt {p : Position} {w : Bytes} {xs : List Spaced} :
    ∀ t ∈ tokensAt p w xs, p.offset + w.length ≤ t.pos.offset := by
  induction xs generalizing p w with
  | nil => simp
  | cons x xs ih =>
    intro t ht
    rcases List.mem_cons.mp ht with rfl | ht
    · simp
    · have hle := ih t ht
      simp only [Position.offset_afterText, List.length_append] at hle
      omega

/-- The tokens of a spelling do not overlap. -/
theorem pairwise_tokensAt (p : Position) (w : Bytes) (xs : List Spaced) :
    (tokensAt p w xs).Pairwise fun t u : Token =>
      t.pos.offset + t.literal.length ≤ u.pos.offset := by
  induction xs generalizing p w with
  | nil => exact .nil
  | cons x xs ih =>
    refine List.pairwise_cons.mpr ⟨fun u hu => ?_, ih _ _⟩
    have hle := offset_le_of_mem_tokensAt u hu
    simp only [Position.offset_afterText, List.length_append] at hle ⊢
    omega

/-- Tokens that were pulled spell the text up to the blanks in front of the cursor. -/
theorem Cursor.Reads.exists_spelling {c d : Cursor} {ts : List Token} (h : c.Reads ts d) :
    ∃ w xs, Blank w ∧ c.Passes (w ++ spell xs) d.skipBlanks ∧ ts = tokensAt c.pos w xs := by
  induction h with
  | nil c =>
    refine ⟨_, [], blank_takeWhile c.rest, ?_, rfl⟩
    rw [spell_nil, List.append_nil]
    exact passes_skipBlanks c
  | @cons c d t ts ht hk _ ih =>
    obtain ⟨hwf, -, hpos, hpass⟩ := passes_of_token ht hk
    obtain ⟨gap, xs, hgap, hrest, rfl⟩ := ih
    refine ⟨_, ⟨t.toLexeme, gap, hwf, hgap⟩ :: xs, blank_takeWhile c.rest, ?_, ?_⟩
    · rw [spell_cons]
      exact (passes_skipBlanks c).trans (hpass.trans hrest)
    · rw [tokensAt_cons, Position.afterText_append, ← (passes_skipBlanks c).pos, ← hpass.pos,
        ← hpos]

/-- The scan of a text is that of a spelling, up to the end of the text or to a byte that starts no
token. -/
theorem tokenize_spelled (src : Bytes) : ∃ w xs, Blank w ∧
    ((src = w ++ spell xs ∧
      tokenize src = ⟨tokensAt .start w xs ++ [⟨.eof, Position.start.afterText src⟩], none⟩) ∨
    ∃ b rest, src = w ++ spell xs ++ b :: rest ∧ isBlank b = false ∧ isSolid b = false ∧
      tokenize src =
        ⟨tokensAt .start w xs, some ⟨Position.start.afterText (w ++ spell xs), b :: rest⟩⟩) := by
  obtain ⟨ts, d, hr, hend⟩ := (Cursor.start src).exists_reads
  obtain ⟨w, xs, hw, hpass, rfl⟩ := hr.exists_spelling
  have hsrc : src = w ++ spell xs ++ d.skipBlanks.rest := hpass.rest
  have hpos : d.skipBlanks.pos = Position.start.afterText (w ++ spell xs) := hpass.pos
  have hscan : tokenize src = ⟨tokensAt .start w xs ++ d.scan.tokens, d.scan.error⟩ := hr.scan_eq
  refine ⟨w, xs, hw, ?_⟩
  rcases hend with ⟨t, ht, hk⟩ | ⟨err, he⟩
  · obtain ⟨htpos, hnil⟩ := Cursor.rest_of_eof ht hk
    have hlex : t.toLexeme = .eof := by
      rcases Cursor.next_ok_cases ht with ⟨hlex, -, -⟩ | ⟨hwf, -, -⟩
      · exact hlex
      · exact absurd hk hwf.kind_ne_eof
    rw [hnil, List.append_nil] at hsrc
    refine .inl ⟨hsrc, ?_⟩
    rw [hscan, Cursor.scan_of_eof ht hk, hsrc, ← hpos, ← htpos, ← hlex]
  · obtain ⟨b, rest, hrest, hb, hs⟩ := Cursor.exists_unmatched he
    rw [Cursor.scan_of_error he, (Cursor.rest_of_error he).1, List.append_nil, hpos, hrest] at hscan
    exact .inr ⟨b, rest, hrest ▸ hsrc, hb, hs, hscan⟩

/-- A spelling whose lexemes are kept apart scans to its own tokens. -/
theorem tokenize_of_separated {w : Bytes} {xs : List Spaced} (hw : Blank w) (hs : Separated xs) :
    tokenize (w ++ spell xs) =
      ⟨tokensAt .start w xs ++ [⟨.eof, Position.start.afterText (w ++ spell xs)⟩], none⟩ := by
  have herr := (tokenize_lexemes_iff.mpr ((lexes_spell_iff hw xs).mpr hs)).1
  obtain ⟨v, ys, hv, ⟨hsrc, hscan⟩ | ⟨b, rest, -, -, -, hscan⟩⟩ := tokenize_spelled (w ++ spell xs)
  · have hys : Separated ys := by
      rw [← lexes_spell_iff hv ys, ← hsrc, ← tokenize_lexemes_iff, hscan]
      simp [Scan.lexemes]
    obtain ⟨rfl, rfl⟩ := spell_injective hw hv hs hys hsrc
    exact hscan
  · rw [hscan] at herr
    cases herr

/-- The text is blanks and the literals of the tokens in turn and then the tail, each token stands
where it says, and no two of them share a byte. -/
structure Partition (src : Bytes) (ts : List Token) (w : Bytes) (xs : List Spaced) (tail : Bytes) :
    Prop where
  blank : Blank w
  text : src = w ++ spell xs ++ tail
  lexemes : ts.map Token.toLexeme = xs.map Spaced.lexeme
  offset : ∀ (i : Nat) (t : Token), ts[i]? = some t →
    t.pos.offset = (w ++ spell (xs.take i)).length
  cut : ∀ t ∈ ts, t.kind ≠ .eof ∧ t.literal ≠ [] ∧
    (src.drop t.pos.offset.toNat).take t.literal.length = t.literal
  apart : ts.Pairwise fun t u : Token => t.pos.offset + t.literal.length ≤ u.pos.offset

theorem partition_tokensAt {w : Bytes} (hw : Blank w) (xs : List Spaced) (tail : Bytes) :
    Partition (w ++ spell xs ++ tail) (tokensAt .start w xs) w xs tail := by
  have hoffset : ∀ (i : Nat) (t : Token), (tokensAt .start w xs)[i]? = some t →
      t.pos.offset = (w ++ spell (xs.take i)).length := by
    intro i t ht
    rw [getElem?_tokensAt] at ht
    obtain ⟨x, -, rfl⟩ := Option.map_eq_some_iff.mp ht
    simp [Position.start]
  refine ⟨hw, rfl, map_tokensAt .start w xs, hoffset, fun t ht => ?_, pairwise_tokensAt .start w xs⟩
  obtain ⟨i, ht⟩ := List.mem_iff_getElem?.mp ht
  have hpos := hoffset i t ht
  rw [getElem?_tokensAt] at ht
  obtain ⟨x, hx, rfl⟩ := Option.map_eq_some_iff.mp ht
  have hsplit : xs = xs.take i ++ x :: xs.drop (i + 1) := by
    rw [List.getElem?_eq_some_iff] at hx
    obtain ⟨hi, rfl⟩ := hx
    simp
  have htext : w ++ spell xs ++ tail = (w ++ spell (xs.take i)) ++
      (x.lexeme.literal ++ (x.gap ++ spell (xs.drop (i + 1)) ++ tail)) := by
    conv_lhs => rw [hsplit]
    simp
  refine ⟨x.wellFormed.kind_ne_eof, x.wellFormed.literal_ne_nil, ?_⟩
  rw [hpos, Int.toNat_natCast, htext, List.drop_left, List.take_left]

/-- Scanning loses no byte and uses none twice: a text is blanks and the literals of its tokens in
turn, each at the offset of its token. Behind them there is nothing, and the end of input stands
behind the last byte, or there is the remainder of the error, whose first byte is no blank and
starts no token. -/
theorem tokenize_partitions (src : Bytes) :
    ∃ (ts : List Token) (w : Bytes) (xs : List Spaced) (tail : Bytes),
      Partition src ts w xs tail ∧
      ((tail = [] ∧ ∃ p : Position, p.offset = src.length ∧
          tokenize src = ⟨ts ++ [⟨.eof, p⟩], none⟩) ∨
        ∃ (p : Position) (b : UInt8) (rest : Bytes), p.offset = (w ++ spell xs).length ∧
          tail = src.drop p.offset.toNat ∧ tail = b :: rest ∧ isBlank b = false ∧
          isSolid b = false ∧ tokenize src = ⟨ts, some ⟨p, tail⟩⟩) := by
  obtain ⟨w, xs, hw, ⟨hsrc, hscan⟩ | ⟨b, rest, hsrc, hb, hs, hscan⟩⟩ := tokenize_spelled src
  · refine ⟨_, w, xs, [], ?_, .inl ⟨rfl, _, ?_, hscan⟩⟩
    · have hpart := partition_tokensAt hw xs []
      rwa [List.append_nil, ← hsrc] at hpart
    · simp [Position.start]
  · refine ⟨_, w, xs, b :: rest, ?_, .inr ⟨_, b, rest, ?_, ?_, rfl, hb, hs, hscan⟩⟩
    · rw [hsrc]
      exact partition_tokensAt hw xs (b :: rest)
    · simp [Position.start]
    · simp only [Position.offset_afterText, Position.start, Int.zero_add, Int.toNat_natCast]
      rw [hsrc, List.drop_left]

/-- What a scan finds before the end of input can stand in a text. -/
theorem exists_wellFormed_lexemes (src : Bytes) :
    ∃ ls : List Lexeme, (∀ l ∈ ls, l.WellFormed) ∧
      (tokenize src).lexemes = ls ++ if (tokenize src).error = none then [.eof] else [] := by
  obtain ⟨w, xs, -, h⟩ := tokenize_spelled src
  refine ⟨xs.map Spaced.lexeme, ?_, ?_⟩
  · intro l hl
    obtain ⟨x, -, rfl⟩ := List.mem_map.mp hl
    exact x.wellFormed
  · rcases h with ⟨-, hscan⟩ | ⟨b, rest, -, -, -, hscan⟩
    · simp [hscan, Scan.lexemes]
    · simp [hscan, Scan.lexemes]

/-- A spelling scans to its own lexemes exactly if no word touches a word or a keyword behind it
and no number touches a number, and a scan finds only lexemes that can be spelled. -/
theorem tokenize_spell_iff :
    (∀ (w : Bytes) (xs : List Spaced), Blank w →
      (((tokenize (w ++ spell xs)).error = none ∧
        (tokenize (w ++ spell xs)).lexemes = xs.map Spaced.lexeme ++ [.eof]) ↔ Separated xs)) ∧
    ∀ src : Bytes, ∃ ls : List Lexeme, (∀ l ∈ ls, l.WellFormed) ∧
      (tokenize src).lexemes = ls ++ if (tokenize src).error = none then [.eof] else [] := by
  refine ⟨fun w xs hw => ?_, exists_wellFormed_lexemes⟩
  rw [tokenize_lexemes_iff]
  exact lexes_spell_iff hw xs

/-- A keyword may touch a word behind it, while two words that touch become something else. -/
theorem tokenize_spell_iff_keyword :
    ∃ keyword word letter : Spaced,
      (keyword.lexeme = ⟨.var, varWord⟩ ∧ word.lexeme = ⟨.ident, utf8 "va"⟩ ∧
        letter.lexeme = ⟨.ident, utf8 "r"⟩) ∧
      (Blank [newline] ∧ Separated [keyword, letter] ∧ ¬ Separated [word, letter]) ∧
      ((tokenize ([newline] ++ spell [keyword, letter])).error = none ∧
        (tokenize ([newline] ++ spell [keyword, letter])).lexemes =
          [keyword.lexeme, letter.lexeme, .eof]) ∧
      ¬ ((tokenize ([newline] ++ spell [word, letter])).error = none ∧
        (tokenize ([newline] ++ spell [word, letter])).lexemes =
          [word.lexeme, letter.lexeme, .eof]) := by
  let keyword : Spaced := ⟨⟨.var, varWord⟩, [], .var, blank_nil⟩
  let word : Spaced := ⟨⟨.ident, utf8 "va"⟩, [], .ident (by decide +kernel) (by decide +kernel)
    (by decide +kernel) (by decide +kernel), blank_nil⟩
  let letter : Spaced := ⟨⟨.ident, utf8 "r"⟩, [], .ident (by decide +kernel) (by decide +kernel)
    (by decide +kernel) (by decide +kernel), blank_nil⟩
  have hw : Blank [newline] := by simp [isBlank, newline]
  have hs : Separated [keyword, letter] := by decide
  have hn : ¬ Separated [word, letter] := by decide
  refine ⟨keyword, word, letter, ⟨rfl, rfl, rfl⟩, ⟨hw, hs, hn⟩, ?_, fun h => hn ?_⟩
  · exact (tokenize_spell_iff.1 [newline] [keyword, letter] hw).mpr hs
  · exact (tokenize_spell_iff.1 [newline] [word, letter] hw).mp h

end StatementLang
