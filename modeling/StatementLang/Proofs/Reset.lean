import StatementLang.Proofs.Reports

/-!
# Sessions after a reset

A session that is reset while nothing waits has an empty table and differs from a new session in
its count of lines only. From there on the two answer alike: what they write, whether they go on,
what they wait for and the variables they hold are the same, and only the lines that reports name
are further down, by the lines that were read up to the reset.
-/

namespace StatementLang

/-- What a session has to say against an input: nothing, that it does not know a command, or that a
program fails at a line of the session and a column in it. -/
inductive Complaint where
  | nothing
  | unknown (word : Bytes)
  | report (row column : Int) (e : ProgramError)

namespace Complaint

def text (colored : Bool) : Complaint → Bytes
  | .nothing => []
  | .unknown word => line (utf8 "Unknown command: " ++ word ++ utf8 " (type .help for commands)")
  | .report row column e => line (Session.reportText colored row column e)

def down (k : Nat) : Complaint → Complaint
  | .report row column e => .report (row + k) column e
  | c => c

end Complaint

/-- The replies are the same, except that the first names lines that are `k` further down. -/
structure Reply.Echoes (colored : Bool) (k : Nat) (r q : Reply) : Prop where
  out : r.out = q.out
  quit : r.quit = q.quit
  err : ∃ c : Complaint, q.err = c.text colored ∧ r.err = (c.down k).text colored

theorem Reply.Echoes.of_eq {colored : Bool} {k : Nat} {r : Reply} (h : r.err = []) :
    r.Echoes colored k r := ⟨rfl, rfl, .nothing, h, h⟩

namespace Session

variable {colored : Bool} {k : Nat} {s t : Session} {text : Bytes}

/-- The first session has read `k` lines more than the second and is the same otherwise. -/
structure Lags (k : Nat) (s t : Session) : Prop where
  symbols : s.symbols = t.symbols
  pending : s.pending = t.pending
  lines : s.lines = t.lines + k
  start : t.pending ≠ [] → 1 ≤ t.start ∧ s.start = t.start + k

theorem Lags.of_idle (hs : s.symbols = t.symbols) (hp : s.pending = []) (hp' : t.pending = [])
    (hl : s.lines = t.lines + k) : s.Lags k t :=
  ⟨hs, hp.trans hp'.symm, hl, fun h => absurd hp' h⟩

theorem Lags.prompt_eq (h : s.Lags k t) : s.prompt = t.prompt := by
  rw [prompt, prompt, h.pending]

theorem Lags.extend (h : s.Lags k t) (text : Bytes) : (s.extend text).Lags k (t.extend text) := by
  have hlines : s.lines + 1 = t.lines + 1 + k := by
    rw [h.lines]
    omega
  refine ⟨h.symbols, ?_, hlines, fun _ => ?_⟩
  · rw [pending_extend, pending_extend, collected, collected, h.pending]
  · by_cases hp : t.pending = []
    · simp [h.pending, hp, hlines]
    · simpa [h.pending, hp] using h.start hp

/-- A command looks at the table only. -/
theorem Lags.command (h : s.Lags k t) (colored : Bool) (text : Bytes) :
    (s.command text).1.Echoes colored k (t.command text).1 ∧
      (s.command text).2.Lags k (t.command text).2 := by
  simp only [Session.command, h.symbols]
  split_ifs
  · exact ⟨.of_eq rfl, h⟩
  · exact ⟨.of_eq rfl, h⟩
  · exact ⟨.of_eq rfl, h⟩
  · exact ⟨.of_eq rfl, rfl, h.pending, h.lines, h.start⟩
  · exact ⟨⟨rfl, rfl, .unknown _, rfl, rfl⟩, h⟩

/-- A text that starts `k` lines further down does the same and is reported `k` lines further
down. -/
theorem Lags.execute (h : s.Lags k t) (colored : Bool) (src : Bytes) {first : Nat}
    (hfirst : 1 ≤ first) :
    (s.execute colored src (first + k)).1.Echoes colored k (t.execute colored src first).1 ∧
      (s.execute colored src (first + k)).2.Lags k (t.execute colored src first).2 := by
  have hrun : StatementLang.execute Sink.writer src s.symbols [] =
      StatementLang.execute Sink.writer src t.symbols [] := by rw [h.symbols]
  have hout : (s.execute colored src (first + k)).1.out = (t.execute colored src first).1.out := by
    simp only [Session.execute, hrun]
  have hsymbols : (s.execute colored src (first + k)).2.symbols =
      (t.execute colored src first).2.symbols := by
    simp only [Session.execute, hrun]
  refine ⟨⟨hout, rfl, ?_⟩, hsymbols, h.pending, h.lines, h.start⟩
  by_cases hnone : (StatementLang.execute Sink.writer src t.symbols []).error = none
  · exact ⟨.nothing, err_execute_of_none hnone, err_execute_of_none (hrun ▸ hnone)⟩
  · obtain ⟨e, he⟩ := exists_program_error writer_reliable hnone
    have hrow : e.pos.line + (first + k - 1 : Nat) = e.pos.line + (first - 1 : Nat) + k := by omega
    refine ⟨.report _ _ e, err_execute_of_program he, ?_⟩
    rw [err_execute_of_program (hrun ▸ he), hrow]
    rfl

/-- Sessions of which one has read more lines answer a line alike, and go on so. -/
theorem Lags.handle (h : s.Lags k t) (colored : Bool) (text : Bytes) :
    (s.handle colored text).1.Echoes colored k (t.handle colored text).1 ∧
      (s.handle colored text).2.Lags k (t.handle colored text).2 := by
  have hread : s.lines + 1 = t.lines + 1 + k := by
    rw [h.lines]
    omega
  by_cases hd : t.pending = [] ∧ (trimSpace text).head? = some 46
  · have hp : s.pending = [] := h.pending.trans hd.1
    rw [handle_of_command hp hd.2, handle_of_command hd.1 hd.2]
    have hidle : Lags k { s with lines := s.lines + 1 } { t with lines := t.lines + 1 } :=
      .of_idle h.symbols hp hd.1 hread
    exact hidle.command colored _
  · rcases s.handle_cases colored (by rwa [h.pending]) with ⟨hp, ht, hs⟩ | ⟨hne, hs⟩ <;>
      rcases t.handle_cases colored hd with ⟨hp', ht', hstep⟩ | ⟨hne', hstep⟩
    · rw [hs, hstep]
      exact ⟨.of_eq rfl, .of_idle h.symbols hp hp' hread⟩
    · exact absurd ⟨h.pending ▸ hp, ht⟩ hne'
    · exact absurd ⟨h.pending.trans hp', ht'⟩ hne
    · have hextend := h.extend text
      rw [hs, hstep]
      split
      · obtain ⟨hfirst, hstart⟩ := hextend.start (t.collected_ne_nil text)
        have hcancel : (s.extend text).cancel.Lags k (t.extend text).cancel :=
          .of_idle hextend.symbols rfl rfl hextend.lines
        have hsrc : s.collected text = t.collected text := hextend.pending
        rw [hsrc, hstart]
        exact hcancel.execute colored _ hfirst
      · exact ⟨.of_eq rfl, hextend⟩

/-- What a session answers to an input; an interrupt is not answered. -/
def answer (colored : Bool) (s : Session) : SessionInput → Reply
  | .line text => (s.handle colored text).1
  | .interrupt => silent
  | .bell => silent

theorem Lags.answer (h : s.Lags k t) (colored : Bool) (i : SessionInput) :
    (s.answer colored i).Echoes colored k (t.answer colored i) := by
  cases i with
  | line text => exact (h.handle colored text).1
  | interrupt => exact .of_eq rfl
  | bell => exact .of_eq rfl

theorem Lags.step (h : s.Lags k t) (colored : Bool) (i : SessionInput) :
    (s.step colored i).Lags k (t.step colored i) := by
  cases i with
  | line text => exact (h.handle colored text).2
  | interrupt => exact .of_idle h.symbols rfl rfl h.lines
  | bell => exact h

/-- Over any inputs the one session stays `k` lines ahead. -/
theorem Lags.run (h : s.Lags k t) (colored : Bool) (inputs : List SessionInput) :
    (inputs.foldl (Session.step colored) s).Lags k (inputs.foldl (Session.step colored) t) := by
  induction inputs generalizing s t with
  | nil => exact h
  | cons i inputs ih => exact ih (h.step colored i)

theorem command_reset (s : Session) :
    s.command (utf8 ".reset") =
      (say (line (utf8 "All variables cleared.")), { s with symbols := .empty }) := by
  have hword : toLower (firstField (utf8 ".reset")) = utf8 ".reset" := by decide +kernel
  have hother : ¬ (utf8 ".reset" = utf8 ".quit" ∨ utf8 ".reset" = utf8 ".exit") ∧
      utf8 ".reset" ≠ utf8 ".help" ∧ utf8 ".reset" ≠ utf8 ".vars" := by decide +kernel
  simp only [command, hword, if_neg hother.1, if_neg hother.2.1, if_neg hother.2.2, if_true]

/-- A session that is reset while nothing waits is a new one with more lines. -/
theorem lags_reset (colored : Bool) (hp : s.pending = []) :
    (s.step colored (.line (utf8 ".reset"))).Lags (s.lines + 1) fresh := by
  have htrim : trimSpace (utf8 ".reset") = utf8 ".reset" := by decide +kernel
  have hdot : (trimSpace (utf8 ".reset")).head? = some 46 := by decide +kernel
  rw [Session.step, handle_of_command hp hdot, htrim, command_reset]
  exact .of_idle rfl hp rfl (Nat.zero_add _).symm

end Session

/-- After a reset a session is a new one with shifted line numbers. Whatever was typed before, if
nothing waits when the session is reset, then over all later inputs it shows the prompt, holds the
variables, writes the output and ends as a new session does that is given the later inputs only. It
makes the same complaints too, except that every report names a line that is further down by the
number of lines up to the reset, the reset among them. -/
theorem reset_starts_afresh (colored : Bool) (before later : List SessionInput)
    (hp : (Session.after colored before).pending = []) :
    let k := (before.flatMap SessionInput.typed).length + 1
    let s := Session.after colored (before ++ .line (utf8 ".reset") :: later)
    let t := Session.after colored later
    s.prompt = t.prompt ∧ s.symbols = t.symbols ∧
      ∀ input : SessionInput, (s.answer colored input).out = (t.answer colored input).out ∧
        (s.answer colored input).quit = (t.answer colored input).quit ∧
        ∃ c : Complaint, (t.answer colored input).err = c.text colored ∧
          (s.answer colored input).err = (c.down k).text colored := by
  intro k s t
  have hk : (Session.after colored before).lines + 1 = k := by
    rw [(Session.tracks_after colored before).count]
  have hlags : s.Lags k t := by
    have hrun : s = later.foldl (Session.step colored)
        ((Session.after colored before).step colored (.line (utf8 ".reset"))) := by
      simp only [s, Session.after, List.foldl_append, List.foldl_cons]
    rw [hrun, ← hk]
    exact (Session.lags_reset colored hp).run colored later
  refine ⟨hlags.prompt_eq, hlags.symbols, fun input => ?_⟩
  obtain ⟨hout, hquit, herr⟩ := hlags.answer colored input
  exact ⟨hout, hquit, herr⟩

/-- Five lines are read up to the reset, one of them given up. Of the three behind it the last two
fail together, at the second of them. -/
theorem reset_starts_afresh_report :
    let before : List SessionInput := [.line (utf8 "var a;"), .line (utf8 "a = 5;"), .line [],
      .line (utf8 "print"), .interrupt]
    let later : List SessionInput := [.line (utf8 "var b;"), .line (utf8 "b =")]
    let input := SessionInput.line (utf8 " a;")
    let s := Session.after false (before ++ .line (utf8 ".reset") :: later)
    let t := Session.after false later
    (Session.after false before).pending = [] ∧
    (t.answer false input).err =
      utf8 "Error: <stdin>:3:2: semantic error: undefined variable: a\n" ∧
    (s.answer false input).err =
      utf8 "Error: <stdin>:8:2: semantic error: undefined variable: a\n" ∧
    s.symbols = t.symbols ∧
    ∃ c : Complaint, (t.answer false input).err = c.text false ∧
      (s.answer false input).err = (c.down 5).text false := by
  intro before later input s t
  have hp : (Session.after false before).pending = [] := by decide +kernel
  obtain ⟨-, hsymbols, hanswer⟩ := reset_starts_afresh false before later hp
  exact ⟨hp, by decide +kernel, by decide +kernel, hsymbols, (hanswer input).2.2⟩

end StatementLang
