import Mathlib.Data.Stream.Init
import StatementLang.Proofs.ExactPositions

/-!
# Pulling step by step

The pulls of a cursor and the scan of its text say the same: first the tokens, then, however often
one pulls, how the scan ends. The pull that comes to the end of the text or to a byte that starts no
token still goes over the blanks in front of it. The next one finds no blanks there, so it gives the
same result and stays where it is.
-/

namespace StatementLang

/-- How a scan ends: with the end of input as its last token, or with its failure. -/
def Scan.EndsWith (s : Scan) : Except LexError Token → Prop
  | .ok t => s.error = none ∧ t.kind = .eof ∧ s.tokens.getLast? = some t
  | .error e => s.error = some e

namespace Cursor

variable {src : Bytes} {c d : Cursor} {ts : List Token}

/-- No token is left to pull but the end of input. -/
def Drained (c : Cursor) : Prop := ∀ t, c.next.1 = .ok t → t.kind = .eof

/-- A pull of a drained cursor goes over blanks only. -/
theorem Drained.next_eq (h : c.Drained) : c.next.2 = c.skipBlanks := by
  cases hc : c.next.1 with
  | error e => rw [next_of_none (rest_of_error hc).2]
  | ok t =>
    rcases next_ok_cases hc with ⟨-, -, hskip⟩ | ⟨hwf, -, -⟩
    · exact hskip
    · exact absurd (h t hc) hwf.kind_ne_eof

/-- Blanks are passed once, so the second pull repeats the first and does not move. -/
theorem Drained.next_next (h : c.Drained) : c.next.2.next = c.next := by
  rw [h.next_eq, next_skipBlanks]

theorem Drained.next (h : c.Drained) : c.next.2.Drained := by
  intro t ht
  rw [h.next_next] at ht
  exact h t ht

theorem Drained.pulls_eq (h : c.Drained) (n : Nat) :
    c.pulls n = (Stream'.const c.next.1).take n := by
  induction n generalizing c with
  | zero => rfl
  | succ n ih =>
    rw [pulls_succ, ih h.next, h.next_next]
    rfl

/-- The tokens that were pulled come first, and what a drained cursor gives stays behind them. -/
theorem Reads.pulls_eq (h : c.Reads ts d) (hd : d.Drained) (n : Nat) :
    c.pulls n = (ts.map Except.ok ++ₛ Stream'.const d.next.1).take n := by
  induction h generalizing n with
  | nil c => exact hd.pulls_eq n
  | cons ht _ _ ih =>
    cases n with
    | zero => rfl
    | succ n =>
      rw [pulls_succ, ht, ih hd, List.map_cons, Stream'.cons_append_stream, Stream'.take_succ_cons]

/-- The pulls of a cursor are the tokens of its scan and then, again and again, its end. -/
theorem exists_pulls_eq (c : Cursor) : ∃ r, c.scan.EndsWith r ∧
    ∀ n, c.pulls n = (c.scan.tokens.map Except.ok ++ₛ Stream'.const r).take n := by
  obtain ⟨ts, d, hr, ⟨t, ht, hk⟩ | ⟨e, he⟩⟩ := c.exists_reads
  · have hd : d.Drained := by
      intro u hu
      rw [ht] at hu
      cases hu
      exact hk
    have hscan : c.scan = ⟨ts ++ [t], none⟩ := by rw [hr.scan_eq, scan_of_eof ht hk]
    refine ⟨.ok t, ?_, fun n => ?_⟩
    · rw [hscan]
      exact ⟨rfl, hk, List.getLast?_concat⟩
    · have hrepeat : [Except.ok t] ++ₛ Stream'.const (Except.ok t) =
          Stream'.const (Except.ok t : Except LexError Token) := (Stream'.const_eq _).symm
      rw [hr.pulls_eq hd, ht, hscan, List.map_append, Stream'.append_append_stream,
        List.map_singleton, hrepeat]
  · have hd : d.Drained := by
      intro u hu
      rw [he] at hu
      cases hu
    have hscan : c.scan = ⟨ts, some e⟩ := by
      rw [hr.scan_eq, scan_of_error he, List.append_nil]
    refine ⟨.error e, ?_, fun n => ?_⟩
    · rw [hscan]
      rfl
    · rw [hr.pulls_eq hd, he, hscan]

theorem StandsIn.behindPulls (h : c.StandsIn src) (n : Nat) : (c.behindPulls n).StandsIn src := by
  induction n generalizing c with
  | zero => exact h
  | succ n ih => exact ih h.next.2

/-- A pull passes some text, and a token is not pulled without passing any. -/
theorem exists_passes (c : Cursor) : ∃ text, c.Passes text c.next.2 ∧
    ∀ t, c.next.1 = .ok t → t.kind ≠ .eof → 0 < text.length := by
  obtain ⟨text, hpass, htext⟩ := c.exists_passes_next
  refine ⟨_, (passes_skipBlanks c).trans hpass, fun t ht hk => ?_⟩
  have hpos := (htext t ht hk).2
  rw [List.length_append]
  omega

end Cursor

/-- The results of any number of pulls from a source are the first of a sequence: the tokens of its
scan and then, forever, how the scan ends. After any number of pulls, the next one goes no byte back
and not beyond the source, it goes forward if it gives a token other than the end of input, and if
it does not, the pull behind it gives the same and stays where it is. -/
theorem pulls_agree_with_tokenize (src : Bytes) :
    (∃ r, (tokenize src).EndsWith r ∧ ∀ n, (Cursor.start src).pulls n =
      ((tokenize src).tokens.map Except.ok ++ₛ Stream'.const r).take n) ∧
    ∀ n, let c := (Cursor.start src).behindPulls n
      c.pos.offset ≤ c.next.2.pos.offset ∧ c.next.2.pos.offset ≤ src.length ∧
      (∀ t, c.next.1 = .ok t → t.kind ≠ .eof → c.pos.offset + 1 ≤ c.next.2.pos.offset) ∧
      ((∀ t, c.next.1 = .ok t → t.kind = .eof) → c.next.2.next = c.next) := by
  refine ⟨(Cursor.start src).exists_pulls_eq, ?_⟩
  intro n c
  have hstands : c.StandsIn src := (Cursor.standsIn_start src).behindPulls n
  obtain ⟨text, hpass, htext⟩ := c.exists_passes
  have hoffset := hpass.offset
  have hwithin := hstands.next.2.exactIn.within
  refine ⟨by omega, hwithin, fun t ht hk => ?_, Cursor.Drained.next_next⟩
  have hpos := htext t ht hk
  omega

/-- The second pull goes over two blanks to a byte that starts no token, and every later one gives
the same error and stays there. -/
theorem pulls_agree_with_tokenize_stray :
    let src := utf8 "x \n@;"
    let x : Token := ⟨⟨.ident, utf8 "x"⟩, ⟨1, 1, 0⟩⟩
    let e : LexError := ⟨⟨2, 1, 3⟩, utf8 "@;"⟩
    let c := (Cursor.start src).behindPulls 1
    tokenize src = ⟨[x], some e⟩ ∧
    (Cursor.start src).pulls 4 = [.ok x, .error e, .error e, .error e] ∧
    (Cursor.start src).pos.offset + 1 ≤ c.pos.offset ∧
    (c.pos.offset = 1 ∧ c.next.2.pos.offset = 3 ∧ c.next.2.pos.offset ≤ src.length) ∧
    c.next.2.next = c.next := by
  intro src x e c
  have hscan : tokenize src = ⟨[x], some e⟩ := by
    rw [tokenize, Cursor.scanFrom_eq]
    decide +kernel
  obtain ⟨⟨r, hr, hpulls⟩, hsteps⟩ := pulls_agree_with_tokenize src
  rw [hscan] at hr hpulls
  have hfirst : (Cursor.start src).next.1 = .ok x := by decide +kernel
  have hstray : c.next.1 = .error e := by decide +kernel
  obtain ⟨-, -, hforward, -⟩ := hsteps 0
  obtain ⟨-, hwithin, -, hstays⟩ := hsteps 1
  cases r with
  | ok t => cases hr.1
  | error e' =>
    cases hr
    refine ⟨hscan, hpulls 4, hforward x hfirst (by decide), ⟨by decide +kernel, by decide +kernel,
      hwithin⟩, hstays ?_⟩
    intro t ht
    rw [hstray] at ht
    cases ht

end StatementLang
