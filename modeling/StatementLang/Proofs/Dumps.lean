import StatementLang.Dump.Render
import StatementLang.Proofs.CanonicalForm
import StatementLang.Proofs.JsonText

/-!
# Dumps can be read back

No literal and no name of a class that the scanner makes holds a tab, a newline or anything that a
JSON string escapes, and every token is on a line of its text. So the plain dump falls into lines
and fields that give back each token but its offset, and the JSON dump is an array whose records
give back the tokens themselves. This holds of what a scan has found before a failure, too.
-/

namespace StatementLang

open Json (Piece Gives Builds BuildsMember Spelled Encloses isPlain Ended)

namespace TokenKind

/-- The classes that the scanner makes. -/
def scanned : List TokenKind := [.eof, .semicolon, .assign, .var, .print, .ident, .int]

def ofName? (name : Bytes) : Option TokenKind := scanned.find? fun k => k.name = name

/-- No two of these classes have the same name. -/
theorem ofName?_name {k : TokenKind} (h : k ∈ scanned) : ofName? k.name = some k := by
  have hall : ∀ k ∈ scanned, ofName? k.name = some k := by decide +kernel
  exact hall k h

end TokenKind

/-- The bytes that a JSON dump does not escape. -/
def isUnescaped (b : UInt8) : Bool := isPlain b && b != 38 && b != 60 && b != 62

@[simp] theorem isUnescaped_iff {b : UInt8} :
    isUnescaped b ↔ isPlain b ∧ b ≠ 38 ∧ b ≠ 60 ∧ b ≠ 62 := by
  simp [isUnescaped, and_assoc]

structure Token.Scanned (t : Token) : Prop where
  kind : t.kind ∈ TokenKind.scanned
  literal : ∀ b ∈ t.literal, isUnescaped b
  line : 1 ≤ t.pos.line

theorem isUnescaped_of_solid {b : UInt8} (h : isSolid b) : isUnescaped b := by
  simp only [isSolid, isLower, isDigit, isUnescaped, isPlain, Bool.and_eq_true, Bool.or_eq_true,
    decide_eq_true_eq, beq_iff_eq, bne_iff_ne] at h ⊢
  grind

theorem isUnescaped_of_digit {b : UInt8} (h : isDigit b) : isUnescaped b :=
  isUnescaped_of_solid (by simp [isSolid, h])

theorem Lexeme.WellFormed.kind_mem {l : Lexeme} (h : l.WellFormed) :
    l.kind ∈ TokenKind.scanned := by
  cases h <;> simp [TokenKind.scanned]

theorem scanned_of_mem_tokenize {src : Bytes} {t : Token} (h : t ∈ (tokenize src).tokens) :
    t.Scanned := by
  obtain ⟨w, xs, -, hscan⟩ := tokenize_spelled src
  have hfound : ∀ u ∈ tokensAt .start w xs, u.Scanned := by
    intro u hu
    obtain ⟨hwf, hline⟩ := mem_tokensAt_start hu
    exact ⟨hwf.kind_mem, fun b hb => isUnescaped_of_solid (hwf.solid b hb), hline⟩
  rcases hscan with ⟨-, hscan⟩ | ⟨b, rest, -, -, -, hscan⟩
  · rw [hscan] at h
    rcases List.mem_append.mp h with h | h
    · exact hfound t h
    · obtain rfl := List.mem_singleton.mp h
      exact ⟨List.mem_cons_self, nofun, Position.line_pos_afterText (Int.le_refl 1) src⟩
  · rw [hscan] at h
    exact hfound t h

theorem isUnescaped_of_mem_name {k : TokenKind} (h : k ∈ TokenKind.scanned) {b : UInt8}
    (hb : b ∈ k.name) : isUnescaped b := by
  have hall : TokenKind.scanned.all fun k => k.name.all isUnescaped := by with_unfolding_all decide
  exact List.all_eq_true.mp (List.all_eq_true.mp hall k h) b hb

theorem isUnescaped_of_mem_intText {z : Int} {b : UInt8} (h : b ∈ intText z) : isUnescaped b := by
  rcases mem_intText h with h | rfl
  · exact isUnescaped_of_digit h
  · decide

/-! ## The plain dump -/

namespace PlainDump

structure Entry where
  line : Int
  column : Int
  kind : TokenKind
  literal : Bytes
  deriving DecidableEq, Repr

def entry (t : Token) : Entry := ⟨t.pos.line, t.pos.column, t.kind, t.literal⟩

def position? (text : Bytes) : Option (Int × Int) :=
  match text.splitOn 58 with
  | [line, column] => (integer? line).bind fun l => (integer? column).map fun c => (l, c)
  | _ => none

/-- Position, class and spelling with tabs between them. -/
def ofLine? (text : Bytes) : Option Entry :=
  match text.splitOn tab with
  | [pos, name, literal] =>
    (position? pos).bind fun p => (TokenKind.ofName? name).map fun kind =>
      ⟨p.1, p.2, kind, literal⟩
  | _ => none

/-- Reads the lines, of which each must have its newline. -/
def read? (text : Bytes) : Option (List Entry) :=
  let pieces := text.splitOn newline
  if pieces.getLast? = some [] then pieces.dropLast.mapM ofLine? else none

def fields (t : Token) : Bytes := [tab].intercalate [t.pos.text, t.kind.name, t.literal]

@[simp] theorem tokenLine_eq (t : Token) : tokenLine t = line (fields t) := by
  simp [tokenLine, fields]

theorem text_eq {p : Position} (h : 1 ≤ p.line) :
    p.text = [58].intercalate [intText p.line, intText p.column] := by
  have hcolon : utf8 ":" = [58] := by with_unfolding_all decide
  have hvalid : p.isValid = true := decide_eq_true (Int.lt_of_lt_of_le Int.zero_lt_one h)
  rw [Position.text, hvalid, if_pos rfl, hcolon]
  simp

theorem position?_text {p : Position} (h : 1 ≤ p.line) :
    position? p.text = some (p.line, p.column) := by
  have hcolon : ∀ z, 58 ∉ intText z := by
    intro z hz
    rcases mem_intText hz with hz | hz
    · cases hz
    · cases hz
  have hsplit : p.text.splitOn 58 = [intText p.line, intText p.column] := by
    rw [text_eq h]
    exact List.splitOn_intercalate 58 (by simp [hcolon]) (by simp)
  rw [position?, hsplit]
  simp

theorem isUnescaped_of_mem_text {p : Position} (h : 1 ≤ p.line) {b : UInt8} (hb : b ∈ p.text) :
    isUnescaped b := by
  rw [text_eq h] at hb
  simp only [List.intercalate_cons_cons, List.intercalate_singleton, List.mem_append,
    List.mem_singleton] at hb
  rcases hb with (hb | rfl) | hb
  · exact isUnescaped_of_mem_intText hb
  · decide
  · exact isUnescaped_of_mem_intText hb

variable {t : Token}

/-- The fields hold neither tabs nor newlines. -/
theorem notMem_of_not_unescaped (h : t.Scanned) {b : UInt8} (hb : isUnescaped b = false) :
    ∀ field ∈ [t.pos.text, t.kind.name, t.literal], b ∉ field := by
  intro field hfield hmem
  have hall : isUnescaped b := by
    simp only [List.mem_cons, List.not_mem_nil, or_false] at hfield
    rcases hfield with rfl | rfl | rfl
    · exact isUnescaped_of_mem_text h.line hmem
    · exact isUnescaped_of_mem_name h.kind hmem
    · exact h.literal b hmem
  rw [hb] at hall
  cases hall

theorem ofLine?_fields (h : t.Scanned) : ofLine? (fields t) = some (entry t) := by
  have hsplit : (fields t).splitOn tab = [t.pos.text, t.kind.name, t.literal] :=
    List.splitOn_intercalate tab (notMem_of_not_unescaped h rfl) (by simp)
  rw [ofLine?, hsplit]
  simp only [position?_text h.line, TokenKind.ofName?_name h.kind]
  rfl

theorem newline_notMem_fields (h : t.Scanned) : newline ∉ fields t := by
  have hfields := notMem_of_not_unescaped h (b := newline) rfl
  have htab : newline ≠ tab := by decide
  simp_all [fields]

theorem count_tab_fields (h : t.Scanned) : (fields t).count tab = 2 := by
  have hfields := notMem_of_not_unescaped h (b := tab) rfl
  simp only [List.mem_cons, List.not_mem_nil, or_false, forall_eq_or_imp, forall_eq] at hfields
  obtain ⟨hpos, hname, hliteral⟩ := hfields
  simp [fields, List.count_eq_zero.mpr hpos, List.count_eq_zero.mpr hname,
    List.count_eq_zero.mpr hliteral]

theorem flatMap_line_eq (lines : List Bytes) :
    lines.flatMap line = [newline].intercalate (lines ++ [[]]) := by
  induction lines with
  | nil => rfl
  | cons l lines ih =>
    rw [List.flatMap_cons, ih, List.cons_append, List.intercalate_cons_of_ne_nil (by simp), line]

/-- The lines fall apart again at their newlines, and each one gives its token back. -/
theorem read?_lines {tokens : List Token} (h : ∀ t ∈ tokens, t.Scanned) :
    read? ((tokens.map fields).flatMap line) = some (tokens.map entry) := by
  have hnewline : ∀ l ∈ tokens.map fields ++ [[]], newline ∉ l := by
    intro l hl
    rcases List.mem_append.mp hl with hl | hl
    · obtain ⟨t, ht, rfl⟩ := List.mem_map.mp hl
      exact newline_notMem_fields (h t ht)
    · rw [List.mem_singleton.mp hl]
      exact List.not_mem_nil
  have hsplit : ((tokens.map fields).flatMap line).splitOn newline = tokens.map fields ++ [[]] := by
    rw [flatMap_line_eq]
    exact List.splitOn_intercalate newline hnewline (by simp)
  simp only [read?, hsplit, List.getLast?_concat, if_true, List.dropLast_concat]
  exact mapM_map_eq_some fun t ht => ofLine?_fields (h t ht)

end PlainDump

/-! ## The JSON dump -/

namespace Json

def text? : Json → Option Bytes
  | .string t => some t
  | _ => none

def int? : Json → Option Int
  | .number numeral => integer? numeral
  | _ => none

def field? (key : String) : Json → Option Json
  | .object members => members.lookup (utf8 key)
  | _ => none

/-- The token that a record describes. A literal that is absent is empty. -/
def token? (j : Json) : Option Token := do
  let kind ← ((← j.field? "type").text?).bind TokenKind.ofName?
  let literal ← (j.field? "literal").elim (some []) text?
  let line ← (← j.field? "line").int?
  let column ← (← j.field? "column").int?
  let offset ← (← j.field? "offset").int?
  some ⟨⟨kind, literal⟩, ⟨line, column, offset⟩⟩

end Json

namespace JsonDump

/-- The value that the dump writes for a token. -/
def record (t : Token) : Json :=
  .object ([(utf8 "type", .string t.kind.name)] ++
    (if t.literal.isEmpty then [] else [(utf8 "literal", .string t.literal)]) ++
    [(utf8 "line", .number (intText t.pos.line)), (utf8 "column", .number (intText t.pos.column)),
      (utf8 "offset", .number (intText t.pos.offset))])

theorem token?_record {t : Token} (h : t.Scanned) : (record t).token? = some t := by
  have hliteral : (utf8 "literal" == utf8 "type") = false ∧
      (utf8 "literal" == utf8 "line") = false ∧ (utf8 "literal" == utf8 "column") = false ∧
      (utf8 "literal" == utf8 "offset") = false := by with_unfolding_all decide
  have hline : (utf8 "line" == utf8 "type") = false ∧
      (utf8 "line" == utf8 "literal") = false := by with_unfolding_all decide
  have hcolumn : (utf8 "column" == utf8 "type") = false ∧
      (utf8 "column" == utf8 "literal") = false ∧ (utf8 "column" == utf8 "line") = false := by
    with_unfolding_all decide
  have hoffset : (utf8 "offset" == utf8 "type") = false ∧
      (utf8 "offset" == utf8 "literal") = false ∧ (utf8 "offset" == utf8 "line") = false ∧
      (utf8 "offset" == utf8 "column") = false := by with_unfolding_all decide
  have hkind := TokenKind.ofName?_name h.kind
  obtain ⟨⟨kind, literal⟩, ⟨line, column, offset⟩⟩ := t
  cases literal with
  | nil =>
    simp [record, Json.token?, Json.field?, List.lookup_cons, Json.text?, Json.int?,
      integer?_intText, hkind, hliteral, hline, hcolumn, hoffset]
  | cons b literal =>
    simp [record, Json.token?, Json.field?, List.lookup_cons, Json.text?, Json.int?,
      integer?_intText, hkind, hliteral, hline, hcolumn, hoffset]

theorem escapeRune_ofByte {b : UInt8} (h : isUnescaped b) : escapeRune (Rune.ofByte b) = [b] := by
  obtain ⟨hplain, hamp, hless, hgreater⟩ := isUnescaped_iff.mp h
  obtain ⟨hlow, hhigh, hquote, hslash⟩ := Json.isPlain_iff.mp hplain
  simp only [ne_eq, ← UInt8.toNat_inj, UInt8.reduceToNat] at hamp hless hgreater hquote hslash
  rw [Rune.ofByte, escapeRune, if_neg (by omega), if_neg (by omega), if_neg (by omega),
    if_neg (by omega), if_neg (by omega), if_neg (by omega), if_neg (by omega),
    encodeRune_of_lt (by omega), UInt8.ofNat_toNat]

theorem string_eq {text : Bytes} (h : ∀ b ∈ text, isUnescaped b) :
    string text = 34 :: text ++ [34] := by
  have hascii : ∀ b ∈ text, b < 0x80 :=
    fun b hb => Json.ascii_of_plain (isUnescaped_iff.mp (h b hb)).1
  rw [string, runes_of_ascii hascii, flatMap_ofByte fun b hb => escapeRune_ofByte (h b hb)]

/-- A member of a record is a key and its value. -/
theorem spelled_member {key : String} {value : Bytes} {ps : List Piece} {v : Json}
    (hkey : (utf8 key).all isPlain) (hgives : Gives value ps) (hbuilds : Builds ps v) :
    Spelled BuildsMember (member key value) (utf8 key, v) := by
  have hfront : utf8 "    \"" = List.replicate 4 32 ++ [34] := by with_unfolding_all decide
  have hback : utf8 "\": " = [34, 58, 32] := by with_unfolding_all decide
  have htext : member key value =
      List.replicate 4 32 ++ ((34 :: utf8 key ++ [34]) ++ ([58] ++ ([32] ++ value))) := by
    rw [member, hfront, hback]
    simp
  have hvalue : Gives ([32] ++ value) ps := hgives.white_append rfl
  have hcolon : Gives ([58] ++ ([32] ++ value)) (.colon :: ps) :=
    (Json.gives_mark rfl).append hvalue (Json.ended_cons rfl _)
  have hmember : Gives ((34 :: utf8 key ++ [34]) ++ ([58] ++ ([32] ++ value)))
      (.text (utf8 key) :: .colon :: ps) :=
    (Json.gives_text (List.all_eq_true.mp hkey)).append hcolon (Json.ended_cons rfl _)
  rw [htext]
  exact ⟨Json.ended_cons rfl _, _, hmember.white_append rfl, ps, rfl, hbuilds⟩

theorem spelled_text (key : String) {text : Bytes} (hkey : (utf8 key).all isPlain)
    (h : ∀ b ∈ text, isUnescaped b) :
    Spelled BuildsMember (member key (string text)) (utf8 key, .string text) := by
  rw [string_eq h]
  exact spelled_member hkey (Json.gives_text fun b hb => (isUnescaped_iff.mp (h b hb)).1)
    fun _ => rfl

theorem spelled_int (key : String) (hkey : (utf8 key).all isPlain) (z : Int) :
    Spelled BuildsMember (member key (intText z)) (utf8 key, .number (intText z)) :=
  spelled_member hkey (Json.gives_intText z) fun _ => rfl

theorem separator : Ended (utf8 ",\n") ∧ Gives (utf8 ",\n") [.comma] := by
  have hsep : utf8 ",\n" = [] ++ ([44] ++ [10]) := by with_unfolding_all decide
  rw [hsep]
  exact Json.gives_padded_mark rfl rfl rfl

theorem spelled_record {t : Token} (h : t.Scanned) : Spelled Builds (object t) (record t) := by
  have hencloses : Encloses (utf8 "  \x7b\n") (utf8 ",\n") (utf8 "\n  \x7d") .openObject
      .closeObject := by
    have hfront : utf8 "  \x7b\n" = [32, 32] ++ ([123] ++ [10]) := by with_unfolding_all decide
    have hback : utf8 "\n  \x7d" = [10, 32, 32] ++ ([125] ++ []) := by with_unfolding_all decide
    rw [hfront, hback]
    exact ⟨Json.gives_padded_mark rfl rfl rfl, separator,
      Json.gives_padded_mark rfl rfl rfl⟩
  have hkind := spelled_text "type" (by with_unfolding_all decide) fun b hb =>
    isUnescaped_of_mem_name h.kind hb
  have hnumbers : List.Forall₂ (Spelled BuildsMember)
      [member "line" (intText t.pos.line), member "column" (intText t.pos.column),
        member "offset" (intText t.pos.offset)]
      [(utf8 "line", .number (intText t.pos.line)), (utf8 "column", .number (intText t.pos.column)),
        (utf8 "offset", .number (intText t.pos.offset))] :=
    .cons (spelled_int "line" (by with_unfolding_all decide) _) <|
      .cons (spelled_int "column" (by with_unfolding_all decide) _) <|
      .cons (spelled_int "offset" (by with_unfolding_all decide) _) .nil
  rw [object, record, List.append_assoc]
  apply Json.spelled_object hencloses
  cases hempty : t.literal.isEmpty with
  | true => exact .cons hkind hnumbers
  | false =>
    exact .cons hkind (.cons (spelled_text "literal" (by with_unfolding_all decide) h.literal) hnumbers)

/-- The dump is the array of the records. -/
theorem decode_render {tokens : List Token} (h : ∀ t ∈ tokens, t.Scanned) :
    Json.decode (render tokens) = some (.array (tokens.map record)) := by
  cases tokens with
  | nil =>
    have hempty : utf8 "[]\n" = [91, 93, 10] := by with_unfolding_all decide
    rw [render, List.isEmpty_nil, if_pos rfl, hempty]
    rfl
  | cons t tokens =>
    have hfront : utf8 "[\n" = [] ++ ([91] ++ [10]) := by with_unfolding_all decide
    have hback : utf8 "\n]\n" = ([10] ++ ([93] ++ [])) ++ [10] := by with_unfolding_all decide
    have hencloses : Encloses ([] ++ ([91] ++ [10])) (utf8 ",\n") ([10] ++ ([93] ++ []))
        .openArray .closeArray :=
      ⟨Json.gives_padded_mark rfl rfl rfl, separator,
        Json.gives_padded_mark rfl rfl rfl⟩
    have hitems : List.Forall₂ (Spelled Builds) ((t :: tokens).map object)
        ((t :: tokens).map record) := by
      rw [List.forall₂_map_left_iff, List.forall₂_map_right_iff, List.forall₂_same]
      exact fun u hu => spelled_record (h u hu)
    rw [render, List.isEmpty_cons, if_neg Bool.false_ne_true, hfront, hback, ← List.append_assoc,
      List.append_assoc _ (joinWith _ _)]
    exact Json.decode_of_spelled (Json.spelled_array hencloses hitems) rfl

theorem mapM_token?_records {tokens : List Token} (h : ∀ t ∈ tokens, t.Scanned) :
    (tokens.map record).mapM Json.token? = some tokens := by
  rw [mapM_map_eq_some fun t ht => token?_record (h t ht), List.map_id']

theorem eq_of_render_eq {tokens others : List Token} (h : ∀ t ∈ tokens, t.Scanned)
    (h' : ∀ t ∈ others, t.Scanned) (hsame : render tokens = render others) : tokens = others := by
  have hvalue := decode_render h
  rw [hsame, decode_render h', Option.some.injEq, Json.array.injEq] at hvalue
  have htokens := mapM_token?_records h
  rw [← hvalue, mapM_token?_records h', Option.some.injEq] at htokens
  exact htokens.symm

end JsonDump

@[simp] theorem Rendering.deliver_zero (r : Rendering) (reason : Bytes) :
    r.deliver 0 reason = ⟨r.pieces.flatten, none⟩ := if_neg (by simp)

theorem dumpTokens_plain (tokens : List Token) (reason : Bytes) :
    dumpTokens tokens (utf8 "plain") 0 reason =
      ⟨(tokens.map PlainDump.fields).flatMap line, none⟩ := by
  have hname : DumpFormat.ofName? (utf8 "plain") = some .plain := by with_unfolding_all decide
  have hlines : tokens.map PlainDump.tokenLine = (tokens.map PlainDump.fields).map line := by
    rw [List.map_map]
    exact List.map_congr_left fun t _ => PlainDump.tokenLine_eq t
  rw [dumpTokens, hname]
  simp only [Rendering.deliver_zero, rendering, hlines, List.flatMap_def]

theorem dumpTokens_json (tokens : List Token) (reason : Bytes) :
    dumpTokens tokens (utf8 "json") 0 reason = ⟨JsonDump.render tokens, none⟩ := by
  have hname : DumpFormat.ofName? (utf8 "json") = some .json := by with_unfolding_all decide
  rw [dumpTokens, hname]
  simp only [Rendering.deliver_zero, rendering, List.flatten_singleton]

/-- Whatever a scan has found can be read back from its dumps. The plain dump has one line for each
token, with two tabs in it, and the lines give back line, column, class and literal. The JSON dump
is an array, and its records give back the tokens with their positions. So two texts with the same
JSON dump have the same tokens. -/
theorem token_dumps_read_back (src reason : Bytes) :
    (∃ lines : List Bytes,
      dumpTokens (tokenize src).tokens (utf8 "plain") 0 reason = ⟨lines.flatMap line, none⟩ ∧
      lines.length = (tokenize src).tokens.length ∧
      (∀ l ∈ lines, newline ∉ l ∧ l.count PlainDump.tab = 2) ∧
      PlainDump.read? (lines.flatMap line) = some ((tokenize src).tokens.map PlainDump.entry)) ∧
    (∃ text items,
      dumpTokens (tokenize src).tokens (utf8 "json") 0 reason = ⟨text, none⟩ ∧
      Json.decode text = some (.array items) ∧
      items.mapM Json.token? = some (tokenize src).tokens) ∧
    ∀ other : Bytes,
      (dumpTokens (tokenize src).tokens (utf8 "json") 0 reason).text =
        (dumpTokens (tokenize other).tokens (utf8 "json") 0 reason).text →
      (tokenize src).tokens = (tokenize other).tokens := by
  have hscanned : ∀ text, ∀ t ∈ (tokenize text).tokens, t.Scanned :=
    fun text t ht => scanned_of_mem_tokenize ht
  refine ⟨⟨_, dumpTokens_plain _ _, by rw [List.length_map], ?_,
    PlainDump.read?_lines (hscanned src)⟩, ⟨_, _, dumpTokens_json _ _,
    JsonDump.decode_render (hscanned src), JsonDump.mapM_token?_records (hscanned src)⟩, ?_⟩
  · intro l hl
    obtain ⟨t, ht, rfl⟩ := List.mem_map.mp hl
    exact ⟨PlainDump.newline_notMem_fields (hscanned src t ht),
      PlainDump.count_tab_fields (hscanned src t ht)⟩
  · intro other hsame
    rw [dumpTokens_json, dumpTokens_json] at hsame
    exact JsonDump.eq_of_render_eq (hscanned src) (hscanned other) hsame

/-- Two texts that fail at different bytes behind the same tokens. -/
theorem token_dumps_read_back_partial :
    let src := utf8 "x =\n 07?"
    let other := utf8 "x\t=\n 07!"
    (tokenize src).error ≠ (tokenize other).error ∧
      (dumpTokens (tokenize src).tokens (utf8 "json") 0 []).text =
        (dumpTokens (tokenize other).tokens (utf8 "json") 0 []).text ∧
      (tokenize src).tokens = (tokenize other).tokens := by
  intro src other
  have hsame : (dumpTokens (tokenize src).tokens (utf8 "json") 0 []).text =
      (dumpTokens (tokenize other).tokens (utf8 "json") 0 []).text := by decide +kernel
  exact ⟨by decide +kernel, hsame, (token_dumps_read_back src []).2.2 other hsame⟩

end StatementLang
