import StatementLang.Proofs.Literals
import StatementLang.Proofs.Trimming

/-!
# Reading JSON

A JSON text is cut into pieces, byte by byte, and the pieces build a value. What is open and not yet
closed waits on a stack, so neither part looks back. A text may be read in parts: what texts with
white space or a mark in front mean is what they mean one after the other, and arrays and objects
are built from their items, however many there are and whatever they hold.
-/

namespace StatementLang

theorem mapM_map_eq_some {α β γ : Type} {f : β → Option γ} {g : α → β} {k : α → γ} {xs : List α}
    (h : ∀ x ∈ xs, f (g x) = some (k x)) : (xs.map g).mapM f = some (xs.map k) := by
  induction xs with
  | nil => rfl
  | cons x xs ih =>
    rw [List.map_cons, List.mapM_cons, h x (by simp), ih fun y hy => h y (by simp [hy])]
    rfl

/-! ## Numerals of integers -/

theorem isDigit_digitByte {d : Nat} (h : d < 10) : isDigit (digitByte d) := by
  have hall : ∀ d < 10, isDigit (digitByte d) := by decide
  exact hall d h

theorem digitValue_digitByte {d : Nat} (h : d < 10) : digitValue (digitByte d) = d := by
  have hall : ∀ d < 10, digitValue (digitByte d) = d := by decide
  exact hall d h

/-- A numeral denotes the number it was made from. -/
@[simp] theorem decimalValue_decimal (n : Nat) : decimalValue (decimal n) = n := by
  induction n using Nat.strongRecOn with
  | ind n ih =>
    by_cases h : n < 10
    · rw [decimal_small h]
      simp [decimalValue, digitValue_digitByte h]
    · rw [decimal_large (by omega), decimalValue_concat, ih (n / 10) (by omega),
        digitValue_digitByte (by omega)]
      omega

theorem isDigit_of_mem_decimal {n : Nat} {b : UInt8} (h : b ∈ decimal n) : isDigit b := by
  induction n using Nat.strongRecOn with
  | ind n ih =>
    by_cases hn : n < 10
    · rw [decimal_small hn, List.mem_singleton] at h
      exact h ▸ isDigit_digitByte hn
    · rw [decimal_large (by omega), List.mem_append, List.mem_singleton] at h
      rcases h with h | rfl
      · exact ih (n / 10) (by omega) h
      · exact isDigit_digitByte (by omega)

/-- Only the numeral of zero starts with a zero. -/
theorem exists_decimal_eq_cons (n : Nat) :
    ∃ b rest, decimal n = b :: rest ∧ (b = 48 → n = 0) := by
  induction n using Nat.strongRecOn with
  | ind n ih =>
    by_cases h : n < 10
    · have hall : ∀ d < 10, digitByte d = 48 → d = 0 := by decide
      exact ⟨_, [], decimal_small h, hall n h⟩
    · obtain ⟨b, rest, hb, hzero⟩ := ih (n / 10) (by omega)
      refine ⟨b, rest ++ [digitByte (n % 10)], ?_, fun h48 => ?_⟩
      · rw [decimal_large (by omega), hb, List.cons_append]
      · have := hzero h48
        omega

def natural? (digits : Bytes) : Option Nat :=
  if digits ≠ [] ∧ digits.all isDigit then some (decimalValue digits) else none

def integer? (text : Bytes) : Option Int :=
  if text.head? = some 45 then (natural? text.tail).map fun n => -(n : Int)
  else (natural? text).map fun n => (n : Int)

@[simp] theorem natural?_decimal (n : Nat) : natural? (decimal n) = some n := by
  obtain ⟨b, rest, h, -⟩ := exists_decimal_eq_cons n
  have hdigits : decimal n ≠ [] ∧ (decimal n).all isDigit :=
    ⟨by simp [h], List.all_eq_true.mpr fun b hb => isDigit_of_mem_decimal hb⟩
  rw [natural?, if_pos hdigits, decimalValue_decimal]

theorem head?_decimal_ne_minus (n : Nat) : (decimal n).head? ≠ some 45 := by
  obtain ⟨b, rest, h, -⟩ := exists_decimal_eq_cons n
  have hb : isDigit b := isDigit_of_mem_decimal (n := n) (by simp [h])
  rw [h, List.head?_cons]
  rintro ⟨⟩
  cases hb

/-- The text of an integer denotes it. -/
@[simp] theorem integer?_intText (z : Int) : integer? (intText z) = some z := by
  cases z with
  | ofNat n =>
    rw [intText, integer?, if_neg (head?_decimal_ne_minus n), natural?_decimal]
    rfl
  | negSucc n =>
    rw [intText, integer?, List.head?_cons, if_pos rfl, List.tail_cons, natural?_decimal]
    rfl

/-- Digits and the minus sign. -/
theorem mem_intText {z : Int} {b : UInt8} (h : b ∈ intText z) : isDigit b ∨ b = 45 := by
  cases z with
  | ofNat n => exact .inl (isDigit_of_mem_decimal h)
  | negSucc n =>
    rcases List.mem_cons.mp h with rfl | h
    · exact .inr rfl
    · exact .inl (isDigit_of_mem_decimal h)

/-! ## Values -/

def Rune.char? : Rune → Option Nat
  | .char c => some c
  | .invalid _ => none

/-- A number keeps its numeral, and an object the order of its members. -/
inductive Json where
  | null
  | bool (b : Bool)
  | number (numeral : Bytes)
  | string (text : Bytes)
  | array (items : List Json)
  | object (members : List (Bytes × Json))

namespace Json

/-- What a text is made of besides white space. -/
inductive Piece where
  | openArray
  | closeArray
  | openObject
  | closeObject
  | comma
  | colon
  | text (t : Bytes)
  | scalar (v : Json)

/-! ## Numerals and strings -/

def isExponent : Bytes → Bool
  | [] => true
  | e :: rest =>
    let digits := if rest.head? = some 43 ∨ rest.head? = some 45 then rest.tail else rest
    (e == 69 || e == 101) && !digits.isEmpty && digits.all isDigit

/-- A fraction may stand in front of the exponent. -/
def isFraction : Bytes → Bool
  | [] => true
  | b :: rest =>
    if b = 46 then !(rest.takeWhile isDigit).isEmpty && isExponent (rest.dropWhile isDigit)
    else isExponent (b :: rest)

/-- Only zero itself starts with a zero. -/
def isUnsigned (text : Bytes) : Bool :=
  let whole := text.takeWhile isDigit
  !whole.isEmpty && (whole.head? != some 48 || whole == [48]) && isFraction (text.dropWhile isDigit)

def isNumeral (text : Bytes) : Bool :=
  isUnsigned (if text.head? = some 45 then text.tail else text)

def scalar? (text : Bytes) : Option Json :=
  if text = utf8 "null" then some .null
  else if text = utf8 "true" then some (.bool true)
  else if text = utf8 "false" then some (.bool false)
  else if isNumeral text then some (.number text)
  else none

def hexValue? (c : Nat) : Option Nat :=
  if 48 ≤ c ∧ c ≤ 57 then some (c - 48)
  else if 65 ≤ c ∧ c ≤ 70 then some (c - 55)
  else if 97 ≤ c ∧ c ≤ 102 then some (c - 87)
  else none

def shortEscape? (c : Nat) : Option Nat :=
  if c = 34 ∨ c = 47 ∨ c = 92 then some c
  else if c = 98 then some 8
  else if c = 102 then some 12
  else if c = 110 then some 10
  else if c = 114 then some 13
  else if c = 116 then some 9
  else none

/-- The characters between two quotes, with escaped code units as they are. A control character
cannot stand for itself. -/
def unescape? : List Nat → Option (List Nat)
  | [] => some []
  | c :: rest =>
    if c = 92 then
      match rest with
      | [] => none
      | e :: rest =>
        if e = 117 then
          match rest with
          | w :: x :: y :: z :: rest => do
            let w ← hexValue? w
            let x ← hexValue? x
            let y ← hexValue? y
            let z ← hexValue? z
            (unescape? rest).map ((w * 4096 + x * 256 + y * 16 + z) :: ·)
          | _ => none
        else (shortEscape? e).bind fun c => (unescape? rest).map (c :: ·)
    else if c < 0x20 then none
    else (unescape? rest).map (c :: ·)

/-- Two code units may be halves of one character; half a character alone is unreadable. -/
def joinHalves : List Nat → List Nat
  | [] => []
  | high :: rest =>
    if 0xD800 ≤ high ∧ high < 0xE000 then
      match rest with
      | low :: more =>
        if high < 0xDC00 ∧ 0xDC00 ≤ low ∧ low < 0xE000 then
          (0x10000 + (high - 0xD800) * 0x400 + (low - 0xDC00)) :: joinHalves more
        else replacement :: joinHalves (low :: more)
      | [] => [replacement]
    else high :: joinHalves rest

/-- The text that stands between two quotes, which must be UTF-8. -/
def string? (body : Bytes) : Option Bytes := do
  let codes ← (runes body).mapM Rune.char?
  let units ← unescape? codes
  some ((joinHalves units).flatMap encodeRune)

/-! ## Cutting a text into pieces -/

def isWhite (b : UInt8) : Bool := b == 32 || b == 9 || b == 10 || b == 13

def mark? (b : UInt8) : Option Piece :=
  if b = 91 then some .openArray
  else if b = 93 then some .closeArray
  else if b = 123 then some .openObject
  else if b = 125 then some .closeObject
  else if b = 44 then some .comma
  else if b = 58 then some .colon
  else none

/-- The bytes that end a scalar. -/
def isEnd (b : UInt8) : Bool := isWhite b || (mark? b).isSome

/-- Where the reader is in a text; the bytes of an unfinished piece are newest first. -/
inductive Mode where
  | between
  | bare (done : Bytes)
  | quoted (done : Bytes)
  | escaped (done : Bytes)

namespace Mode

/-- What a byte between two pieces is, or what it starts. -/
def enter (b : UInt8) : List Piece × Mode :=
  if isWhite b then ([], .between)
  else
    match mark? b with
    | some p => ([p], .between)
    | none => if b = 34 then ([], .quoted []) else ([], .bare [b])

def next : Mode → UInt8 → Option (List Piece × Mode)
  | .between, b => some (enter b)
  | .bare done, b =>
    if isEnd b then (scalar? done.reverse).map fun v => (.scalar v :: (enter b).1, (enter b).2)
    else some ([], .bare (b :: done))
  | .quoted done, b =>
    if b = 34 then (string? done.reverse).map fun t => ([.text t], .between)
    else if b = 92 then some ([], .escaped (b :: done))
    else some ([], .quoted (b :: done))
  | .escaped done, b => some ([], .quoted (b :: done))

/-- The end of the text ends a scalar, and must not stand in a string. -/
def finish : Mode → Option (List Piece)
  | .between => some []
  | .bare done => (scalar? done.reverse).map fun v => [.scalar v]
  | _ => none

end Mode

def pieces : Mode → Bytes → Option (List Piece)
  | m, [] => m.finish
  | m, b :: rest => (m.next b).bind fun p => (pieces p.2 rest).map (p.1 ++ ·)

@[simp] theorem pieces_nil (m : Mode) : pieces m [] = m.finish := rfl

@[simp] theorem pieces_cons (m : Mode) (b : UInt8) (rest : Bytes) :
    pieces m (b :: rest) = (m.next b).bind fun p => (pieces p.2 rest).map (p.1 ++ ·) := rfl

namespace Mode

variable {b : UInt8}

@[simp] theorem finish_between : finish .between = some [] := rfl

@[simp] theorem finish_bare (done : Bytes) :
    finish (.bare done) = (scalar? done.reverse).map fun v => [.scalar v] := rfl

@[simp] theorem enter_of_isWhite (h : isWhite b) : enter b = ([], .between) := if_pos h

@[simp] theorem enter_of_mark? {p : Piece} (h : mark? b = some p) : enter b = ([p], .between) := by
  have hwhite : isWhite b = false := by
    simp only [isWhite, mark?] at h ⊢
    grind
  simp [enter, hwhite, h]

@[simp] theorem enter_quote : enter 34 = ([], .quoted []) := rfl

@[simp] theorem enter_bare (h : isEnd b = false) (hquote : b ≠ 34) : enter b = ([], .bare [b]) := by
  rw [isEnd, Bool.or_eq_false_iff, Option.isSome_eq_false_iff, Option.isNone_iff_eq_none] at h
  simp [enter, h, hquote]

@[simp] theorem next_between (b : UInt8) : next .between b = some (enter b) := rfl

@[simp] theorem next_bare_of_isEnd (h : isEnd b) (done : Bytes) : next (.bare done) b =
    (scalar? done.reverse).map fun v => (.scalar v :: (enter b).1, (enter b).2) := if_pos h

@[simp] theorem next_bare (h : isEnd b = false) (done : Bytes) :
    next (.bare done) b = some ([], .bare (b :: done)) := by
  simp [next, h]

@[simp] theorem next_quoted_quote (done : Bytes) :
    next (.quoted done) 34 = (string? done.reverse).map fun t => ([.text t], .between) := rfl

@[simp] theorem next_quoted (hquote : b ≠ 34) (hslash : b ≠ 92) (done : Bytes) :
    next (.quoted done) b = some ([], .quoted (b :: done)) := by
  simp [next, hquote, hslash]

end Mode

/-! ## Building a value -/

/-- An array or object that is open: what it holds, newest first, and the key in front of the value
that is being built. -/
inductive Frame where
  | array (items : List Json)
  | object (members : List (Bytes × Json)) (key : Bytes)

/-- What may come next. -/
inductive State where
  | value (frames : List Frame)
  | firstItem (frames : List Frame)
  | firstKey (frames : List Frame)
  | key (members : List (Bytes × Json)) (frames : List Frame)
  | colon (members : List (Bytes × Json)) (key : Bytes) (frames : List Frame)
  | complete (v : Json) (frames : List Frame)

/-- A value is or starts with this piece. -/
def begin? (frames : List Frame) : Piece → Option State
  | .openArray => some (.firstItem frames)
  | .openObject => some (.firstKey frames)
  | .text t => some (.complete (.string t) frames)
  | .scalar v => some (.complete v frames)
  | _ => none

def step : State → Piece → Option State
  | .value frames, p => begin? frames p
  | .firstItem frames, .closeArray => some (.complete (.array []) frames)
  | .firstItem frames, p => begin? (.array [] :: frames) p
  | .firstKey frames, .closeObject => some (.complete (.object []) frames)
  | .firstKey frames, .text k => some (.colon [] k frames)
  | .key members frames, .text k => some (.colon members k frames)
  | .colon members k frames, .colon => some (.value (.object members k :: frames))
  | .complete v (.array items :: frames), .comma => some (.value (.array (v :: items) :: frames))
  | .complete v (.array items :: frames), .closeArray =>
    some (.complete (.array (v :: items).reverse) frames)
  | .complete v (.object members k :: frames), .comma => some (.key ((k, v) :: members) frames)
  | .complete v (.object members k :: frames), .closeObject =>
    some (.complete (.object ((k, v) :: members).reverse) frames)
  | _, _ => none

def build (ps : List Piece) (s : State) : Option State := ps.foldlM step s

def decode (text : Bytes) : Option Json := do
  let ps ← pieces .between text
  match ← build ps (.value []) with
  | .complete v [] => some v
  | _ => none

/-! ## Reading a text in parts -/

/-- The next byte, if there is one, ends a scalar. -/
def Ended (text : Bytes) : Prop := ∀ b ∈ text.head?, isEnd b

theorem ended_cons {b : UInt8} (h : isEnd b) (text : Bytes) : Ended (b :: text) := by
  intro c hc
  obtain rfl : b = c := by simpa using hc
  exact h

theorem Ended.append {a b : Bytes} (ha : Ended a) (hb : Ended b) : Ended (a ++ b) := by
  cases a with
  | nil => exact hb
  | cons x a => exact ended_cons (ha x rfl) _

/-- The text is cut into these pieces wherever nothing behind it can lengthen its last one. -/
def Gives (text : Bytes) (ps : List Piece) : Prop :=
  ∀ rest, Ended rest → pieces .between (text ++ rest) = (pieces .between rest).map (ps ++ ·)

theorem Gives.append {a b : Bytes} {ps qs : List Piece} (ha : Gives a ps) (hb : Gives b qs)
    (he : Ended b) : Gives (a ++ b) (ps ++ qs) := by
  intro rest hrest
  rw [List.append_assoc, ha _ (he.append hrest), hb _ hrest, Option.map_map]
  congr 1
  funext more
  exact (List.append_assoc ps qs more).symm

theorem ended_of_white {w : Bytes} (h : w.all isWhite) : Ended w := by
  intro b hb
  rw [isEnd, List.all_eq_true.mp h b (List.mem_of_mem_head? hb), Bool.true_or]

theorem gives_nil : Gives [] [] := by
  intro rest _
  simp

theorem Gives.white_append {w text : Bytes} {ps : List Piece} (h : Gives text ps)
    (hw : w.all isWhite) : Gives (w ++ text) ps := by
  induction w with
  | nil => exact h
  | cons b w ih =>
    rw [List.all_cons, Bool.and_eq_true] at hw
    intro rest hrest
    simpa [hw.1] using ih hw.2 rest hrest

theorem gives_white {w : Bytes} (h : w.all isWhite) : Gives w [] := by
  have hw := gives_nil.white_append h
  rwa [List.append_nil] at hw

theorem gives_mark {b : UInt8} {p : Piece} (h : mark? b = some p) : Gives [b] [p] := by
  intro rest _
  simp [h]

/-- A mark may have white space around it. -/
theorem gives_padded_mark {w v : Bytes} {b : UInt8} {p : Piece} (hw : w.all isWhite)
    (h : mark? b = some p) (hv : v.all isWhite) :
    Ended (w ++ ([b] ++ v)) ∧ Gives (w ++ ([b] ++ v)) [p] := by
  have hb : isEnd b := by simp [isEnd, h]
  have hmark : Gives ([b] ++ v) [p] :=
    (gives_mark h).append (gives_white hv) (ended_of_white hv)
  exact ⟨(ended_of_white hw).append (ended_cons hb v), hmark.white_append hw⟩

/-- A scalar goes on to the next byte that ends it. -/
theorem pieces_bare {w rest : Bytes} (hw : ∀ b ∈ w, isEnd b = false) (hrest : Ended rest)
    (done : Bytes) :
    pieces (.bare done) (w ++ rest) = (scalar? (done.reverse ++ w)).bind fun v =>
      (pieces .between rest).map (.scalar v :: ·) := by
  induction w generalizing done with
  | nil =>
    cases rest with
    | nil => cases h : scalar? done.reverse <;> simp [h]
    | cons b rest =>
      have hb : isEnd b := hrest b rfl
      cases h : scalar? done.reverse <;> simp [h, hb, Function.comp_def]
  | cons b w ih =>
    have hb : isEnd b = false := hw b List.mem_cons_self
    simp [hb, ih fun c hc => hw c (List.mem_cons_of_mem b hc)]

theorem gives_scalar {b : UInt8} {w : Bytes} {v : Json} (hw : ∀ c ∈ b :: w, isEnd c = false)
    (hb : b ≠ 34) (h : scalar? (b :: w) = some v) : Gives (b :: w) [.scalar v] := by
  rw [List.forall_mem_cons] at hw
  intro rest hrest
  simp [hw.1, hb, h, pieces_bare hw.2 hrest, Function.comp_def]

theorem isUnsigned_decimal (n : Nat) : isUnsigned (decimal n) := by
  have hdigits : ∀ b ∈ decimal n, isDigit b := fun b hb => isDigit_of_mem_decimal hb
  obtain ⟨b, rest, h, hzero⟩ := exists_decimal_eq_cons n
  have hfront : b ≠ 48 ∨ decimal n = [48] := by
    by_cases hb : b = 48
    · rw [hzero hb]
      exact .inr (decimal_small (by omega))
    · exact .inl hb
  rw [isUnsigned, List.takeWhile_eq_self_iff.mpr hdigits, List.dropWhile_eq_nil_iff.mpr hdigits]
  rcases hfront with hb | hb
  · simp [h, hb, isFraction]
  · simp [hb, isFraction]

theorem isNumeral_intText (z : Int) : isNumeral (intText z) := by
  cases z with
  | ofNat n =>
    rw [intText, isNumeral, if_neg (head?_decimal_ne_minus n)]
    exact isUnsigned_decimal n
  | negSucc n => exact isUnsigned_decimal (n + 1)

theorem bare_of_mem_intText {z : Int} {b : UInt8} (h : b ∈ intText z) :
    isEnd b = false ∧ b ≠ 34 ∧ isLower b = false := by
  have hdigit : ∀ d < 10, isEnd (digitByte d) = false ∧ digitByte d ≠ 34 ∧
      isLower (digitByte d) = false := by decide
  rcases mem_intText h with hb | rfl
  · rw [← digitByte_digitValue hb]
    exact hdigit _ (digitValue_lt hb)
  · decide

@[simp] theorem scalar?_intText (z : Int) : scalar? (intText z) = some (.number (intText z)) := by
  have hword : ∀ w : Bytes, w.any isLower → intText z ≠ w := by
    rintro _ hw rfl
    obtain ⟨b, hb, hlower⟩ := List.any_eq_true.mp hw
    rw [(bare_of_mem_intText hb).2.2] at hlower
    cases hlower
  rw [scalar?, if_neg (hword _ (by with_unfolding_all decide)), if_neg (hword _ (by with_unfolding_all decide)),
    if_neg (hword _ (by with_unfolding_all decide)), if_pos (isNumeral_intText z)]

theorem gives_intText (z : Int) : Gives (intText z) [.scalar (.number (intText z))] := by
  have hbytes : ∀ b ∈ intText z, isEnd b = false ∧ b ≠ 34 ∧ isLower b = false :=
    fun b hb => bare_of_mem_intText hb
  have hscalar := scalar?_intText z
  have hne : intText z ≠ [] := by
    intro hnil
    have hvalue := integer?_intText z
    rw [hnil] at hvalue
    cases hvalue
  obtain ⟨b, w, h⟩ := List.exists_cons_of_ne_nil hne
  rw [h] at hbytes hscalar ⊢
  exact gives_scalar (fun c hc => (hbytes c hc).1) (hbytes b (by simp)).2.1 hscalar

/-- The bytes that stand for themselves in a string: printable characters of one byte other than the
quote and the backslash. -/
def isPlain (b : UInt8) : Bool := 0x20 ≤ b && b < 0x7F && b != 34 && b != 92

theorem isPlain_iff {b : UInt8} :
    isPlain b ↔ 0x20 ≤ b.toNat ∧ b.toNat < 0x7F ∧ b ≠ 34 ∧ b ≠ 92 := by
  simp [isPlain, UInt8.le_iff_toNat_le, UInt8.lt_iff_toNat_lt, and_assoc]

theorem unescape?_of_plain {body : Bytes} (h : ∀ b ∈ body, isPlain b) :
    unescape? (body.map UInt8.toNat) = some (body.map UInt8.toNat) := by
  induction body with
  | nil => rfl
  | cons b body ih =>
    obtain ⟨hlow, -, -, hslash⟩ := isPlain_iff.mp (h b (by simp))
    have hcode : b.toNat ≠ 92 := fun hb => hslash (UInt8.toNat_inj.mp hb)
    rw [List.map_cons, unescape?.eq_def]
    simp only [hcode, if_false, if_neg (Nat.not_lt.mpr hlow)]
    rw [ih fun c hc => h c (by simp [hc])]
    rfl

theorem joinHalves_of_plain {body : Bytes} (h : ∀ b ∈ body, isPlain b) :
    joinHalves (body.map UInt8.toNat) = body.map UInt8.toNat := by
  induction body with
  | nil => rfl
  | cons b body ih =>
    obtain ⟨-, hhigh, -, -⟩ := isPlain_iff.mp (h b (by simp))
    have hwhole : ¬ (0xD800 ≤ b.toNat ∧ b.toNat < 0xE000) := by omega
    rw [List.map_cons, joinHalves.eq_def]
    simp only [if_neg hwhole]
    rw [ih fun c hc => h c (by simp [hc])]

theorem ascii_of_plain {b : UInt8} (h : isPlain b) : b < 0x80 :=
  UInt8.lt_iff_toNat_lt.mpr (Nat.lt_trans (isPlain_iff.mp h).2.1 (by decide))

theorem string?_of_plain {body : Bytes} (h : ∀ b ∈ body, isPlain b) : string? body = some body := by
  have hascii : ∀ b ∈ body, b < 0x80 := fun b hb => ascii_of_plain (h b hb)
  have hcodes : (runes body).mapM Rune.char? = some (body.map UInt8.toNat) := by
    rw [runes_of_ascii hascii]
    exact mapM_map_eq_some fun b _ => rfl
  have hbytes : (body.map UInt8.toNat).flatMap encodeRune = body := by
    have hsame := flatMap_ofByte fun b hb => bytes_ofByte (hascii b hb)
    rw [List.flatMap_map] at hsame ⊢
    exact hsame
  rw [string?, hcodes]
  simp only [Option.bind_eq_bind, Option.bind_some]
  rw [unescape?_of_plain h, Option.bind_some, joinHalves_of_plain h, hbytes]

/-- A string of plain bytes goes on to the next quote. -/
theorem pieces_quoted {t : Bytes} (h : ∀ b ∈ t, isPlain b) (done rest : Bytes) :
    pieces (.quoted done) (t ++ 34 :: rest) = (string? (done.reverse ++ t)).bind fun s =>
      (pieces .between rest).map (.text s :: ·) := by
  induction t generalizing done with
  | nil =>
    cases h : string? done.reverse <;> simp [h]
  | cons b t ih =>
    obtain ⟨-, -, hquote, hslash⟩ := isPlain_iff.mp (h b (by simp))
    simp [hquote, hslash, ih fun c hc => h c (List.mem_cons_of_mem b hc)]

theorem gives_text {t : Bytes} (h : ∀ b ∈ t, isPlain b) : Gives (34 :: t ++ [34]) [.text t] := by
  intro rest _
  simp [pieces_quoted h, string?_of_plain h, Function.comp_def]

/-! ## Building arrays and objects -/

@[simp] theorem build_nil (s : State) : build [] s = some s := rfl

@[simp] theorem build_append (ps qs : List Piece) (s : State) :
    build (ps ++ qs) s = (build ps s).bind (build qs) := List.foldlM_append

@[simp] theorem build_cons (p : Piece) (ps : List Piece) (s : State) :
    build (p :: ps) s = (step s p).bind (build ps) := List.foldlM_cons

section

variable (frames : List Frame) (items : List Json) (members : List (Bytes × Json)) (k : Bytes)
  (v : Json)

@[simp] theorem step_openArray : step (.value frames) .openArray = some (.firstItem frames) := rfl

@[simp] theorem step_openObject : step (.value frames) .openObject = some (.firstKey frames) := rfl

@[simp] theorem step_key :
    step (.key members frames) (.text k) = some (.colon members k frames) := rfl

@[simp] theorem step_colon :
    step (.colon members k frames) .colon = some (.value (.object members k :: frames)) := rfl

@[simp] theorem step_comma_array :
    step (.complete v (.array items :: frames)) .comma =
      some (.value (.array (v :: items) :: frames)) := rfl

@[simp] theorem step_closeArray :
    step (.complete v (.array items :: frames)) .closeArray =
      some (.complete (.array (v :: items).reverse) frames) := rfl

@[simp] theorem step_comma_object :
    step (.complete v (.object members k :: frames)) .comma =
      some (.key ((k, v) :: members) frames) := rfl

@[simp] theorem step_closeObject :
    step (.complete v (.object members k :: frames)) .closeObject =
      some (.complete (.object ((k, v) :: members).reverse) frames) := rfl

end

/-- The pieces are those of the value, wherever a value is expected. -/
def Builds (ps : List Piece) (v : Json) : Prop :=
  ∀ frames, build ps (.value frames) = some (.complete v frames)

/-- The pieces are a key, a colon and the pieces of the value. -/
def BuildsMember (ps : List Piece) (m : Bytes × Json) : Prop :=
  ∃ qs, ps = .text m.1 :: .colon :: qs ∧ Builds qs m.2

def separated (parts : List (List Piece)) : List Piece := [Piece.comma].intercalate parts

@[simp] theorem separated_cons_cons (x y : List Piece) (parts : List (List Piece)) :
    separated (x :: y :: parts) = x ++ .comma :: separated (y :: parts) := rfl

@[simp] theorem separated_singleton (x : List Piece) : separated [x] = x := List.append_nil x

/-- The first value behind an opening bracket is an item like those that follow. -/
theorem Builds.build_firstItem {ps : List Piece} {v : Json} (h : Builds ps v)
    (rest : List Piece) (frames : List Frame) :
    build (ps ++ rest) (.firstItem frames) = build (ps ++ rest) (.value (.array [] :: frames)) := by
  cases ps with
  | nil => cases h []
  | cons p ps =>
    have hp : p ≠ .closeArray := by
      rintro rfl
      cases h []
    rw [List.cons_append, build_cons, build_cons]
    cases p with
    | closeArray => exact absurd rfl hp
    | _ => rfl

theorem build_items {parts : List (List Piece)} {vs : List Json} {ps : List Piece} {v : Json}
    (hfirst : Builds ps v) (h : List.Forall₂ Builds parts vs) (done : List Json)
    (frames : List Frame) :
    build (separated (ps :: parts) ++ [.closeArray]) (.value (.array done :: frames)) =
      some (.complete (.array (done.reverse ++ v :: vs)) frames) := by
  induction h generalizing ps v done with
  | nil => simp [hfirst (.array done :: frames)]
  | @cons qs w parts vs hnext _ ih =>
    rw [separated_cons_cons, List.append_assoc, build_append, hfirst, Option.bind_some,
      List.cons_append, build_cons, step_comma_array, Option.bind_some, ih hnext]
    simp

/-- An array of any values. -/
theorem builds_array {parts : List (List Piece)} {vs : List Json}
    (h : List.Forall₂ Builds parts vs) :
    Builds (.openArray :: (separated parts ++ [.closeArray])) (.array vs) := by
  intro frames
  rw [build_cons, step_openArray, Option.bind_some]
  cases h with
  | nil => rfl
  | @cons ps v parts vs hfirst hrest =>
    have hitem : build (separated (ps :: parts) ++ [.closeArray]) (.firstItem frames) =
        build (separated (ps :: parts) ++ [.closeArray]) (.value (.array [] :: frames)) := by
      cases parts with
      | nil =>
        rw [separated_singleton]
        exact hfirst.build_firstItem _ _
      | cons qs parts =>
        rw [separated_cons_cons, List.append_assoc]
        exact hfirst.build_firstItem _ _
    rw [hitem, build_items hfirst hrest]
    rfl

theorem build_members {parts : List (List Piece)} {ms : List (Bytes × Json)} {ps : List Piece}
    {m : Bytes × Json} (hfirst : BuildsMember ps m) (h : List.Forall₂ BuildsMember parts ms)
    (done : List (Bytes × Json)) (frames : List Frame) :
    build (separated (ps :: parts) ++ [.closeObject]) (.key done frames) =
      some (.complete (.object (done.reverse ++ m :: ms)) frames) := by
  have hmember : ∀ {ps : List Piece} {m : Bytes × Json} (_ : BuildsMember ps m)
      (done : List (Bytes × Json)) (rest : List Piece),
      build (ps ++ rest) (.key done frames) =
        build rest (.complete m.2 (.object done m.1 :: frames)) := by
    rintro _ m ⟨qs, rfl, hqs⟩ done rest
    simp [hqs (.object done m.1 :: frames)]
  induction h generalizing ps m done with
  | nil =>
    rw [separated_singleton, hmember hfirst]
    simp
  | @cons qs w parts ms hnext _ ih =>
    rw [separated_cons_cons, List.append_assoc, hmember hfirst, List.cons_append, build_cons,
      step_comma_object, Option.bind_some, ih hnext]
    simp

/-- An object of any members. -/
theorem builds_object {parts : List (List Piece)} {ms : List (Bytes × Json)}
    (h : List.Forall₂ BuildsMember parts ms) :
    Builds (.openObject :: (separated parts ++ [.closeObject])) (.object ms) := by
  intro frames
  rw [build_cons, step_openObject, Option.bind_some]
  cases h with
  | nil => rfl
  | @cons ps m parts ms hfirst hrest =>
    have hkey : build (separated (ps :: parts) ++ [.closeObject]) (.firstKey frames) =
        build (separated (ps :: parts) ++ [.closeObject]) (.key [] frames) := by
      obtain ⟨qs, rfl, -⟩ := hfirst
      cases parts <;> rfl
    rw [hkey, build_members hfirst hrest]
    rfl

/-! ## Texts of values -/

/-- A text with white space or a mark in front, whose pieces stand for `a`. -/
def Spelled {α : Type} (P : List Piece → α → Prop) (text : Bytes) (a : α) : Prop :=
  Ended text ∧ ∃ ps, Gives text ps ∧ P ps a

/-- The texts in front of the parts, between them and behind them. -/
structure Encloses (front sep back : Bytes) (opening closing : Piece) : Prop where
  front : Ended front ∧ Gives front [opening]
  sep : Ended sep ∧ Gives sep [.comma]
  back : Ended back ∧ Gives back [closing]

section Enclosing

variable {α : Type} {P : List Piece → α → Prop} {texts : List Bytes} {as : List α}
  {front sep back : Bytes}

theorem exists_gives_joinWith (hsep : Ended sep ∧ Gives sep [.comma])
    (h : List.Forall₂ (Spelled P) texts as) :
    Ended (joinWith sep texts) ∧
      ∃ parts, Gives (joinWith sep texts) (separated parts) ∧ List.Forall₂ P parts as := by
  induction h with
  | nil => exact ⟨nofun, [], gives_nil, .nil⟩
  | @cons text a texts as htext hrest ih =>
    obtain ⟨hended, ps, hgives, hps⟩ := htext
    cases hrest with
    | nil =>
      have hjoin : joinWith sep [text] = text := List.append_nil text
      rw [hjoin]
      exact ⟨hended, [ps], by rwa [separated_singleton], .cons hps .nil⟩
    | @cons next b texts as hnext hrest =>
      obtain ⟨hmore, parts, hparts, hall⟩ := ih
      obtain ⟨qs, parts, -, -, rfl⟩ := List.forall₂_cons_right_iff.mp hall
      have hjoin : joinWith sep (text :: next :: texts) =
          text ++ (sep ++ joinWith sep (next :: texts)) := rfl
      rw [hjoin]
      have hcomma := hsep.2.append hparts hmore
      exact ⟨hended.append (hsep.1.append hmore), ps :: qs :: parts,
        hgives.append hcomma (hsep.1.append hmore), .cons hps hall⟩

/-- Brackets around parts of any number make a value. -/
theorem Encloses.spelled {opening closing : Piece} {v : Json}
    (h : Encloses front sep back opening closing) (htexts : List.Forall₂ (Spelled P) texts as)
    (hv : ∀ parts, List.Forall₂ P parts as →
      Builds (opening :: (separated parts ++ [closing])) v) :
    Spelled Builds (front ++ (joinWith sep texts ++ back)) v := by
  obtain ⟨hended, parts, hparts, hall⟩ := exists_gives_joinWith h.sep htexts
  have hinner := hparts.append h.back.2 h.back.1
  exact ⟨h.front.1.append (hended.append h.back.1), _,
    h.front.2.append hinner (hended.append h.back.1), hv parts hall⟩

theorem spelled_array {vs : List Json} (h : Encloses front sep back .openArray .closeArray)
    (htexts : List.Forall₂ (Spelled Builds) texts vs) :
    Spelled Builds (front ++ (joinWith sep texts ++ back)) (.array vs) :=
  h.spelled htexts fun _ hparts => builds_array hparts

theorem spelled_object {ms : List (Bytes × Json)}
    (h : Encloses front sep back .openObject .closeObject)
    (htexts : List.Forall₂ (Spelled BuildsMember) texts ms) :
    Spelled Builds (front ++ (joinWith sep texts ++ back)) (.object ms) :=
  h.spelled htexts fun _ hparts => builds_object hparts

end Enclosing

/-- The text of a value is read as that value, with white space behind it. -/
theorem decode_of_spelled {text w : Bytes} {v : Json} (h : Spelled Builds text v)
    (hw : w.all isWhite) : decode (text ++ w) = some v := by
  obtain ⟨-, ps, hgives, hbuilds⟩ := h
  have hwhite : pieces .between w = some [] := by
    have hnil := gives_white hw [] nofun
    rwa [List.append_nil] at hnil
  have hpieces : pieces .between (text ++ w) = some ps := by
    rw [hgives w (ended_of_white hw), hwhite]
    simp
  rw [decode, hpieces]
  simp only [Option.bind_eq_bind, Option.bind_some]
  rw [hbuilds []]
  rfl

end Json

end StatementLang
