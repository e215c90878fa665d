import StatementLang.Proofs.Reports

/-!
# The bookkeeping of a session

Every line that a session reads is passed over, because it is blank or a command and nothing waits,
or joins the block of lines that wait. A block is closed when it is executed or cancelled. So the
blocks are ranges of lines in increasing order, no line is in two of them, and what waits and what
is executed is always the text of one block.
-/

namespace StatementLang

inductive Deed where
  | skip
  | obey (command : Bytes)
  | keep
  | execute (src : Bytes) (first : Nat)
  deriving DecidableEq, Repr

inductive Fate where
  | executed
  | cancelled
  | pending
  deriving DecidableEq, Repr

/-- The session lines from `first` to `last`. -/
structure Block where
  first : Nat
  last : Nat
  fate : Fate
  deriving DecidableEq, Repr

/-- The line ends with a semicolon. -/
abbrev Closes (text : Bytes) : Prop := (trimSpace text).getLast? = some 59

namespace Block

variable {b : Block} {lines : List Bytes}

def slice (b : Block) (lines : List Bytes) : List Bytes := (lines.take b.last).drop (b.first - 1)

/-- A line of the session is in one of the blocks. -/
def Cover (blocks : List Block) (n : Nat) : Prop := ∃ b ∈ blocks, b.first ≤ n ∧ n ≤ b.last

@[simp] theorem cover_append {a b : List Block} {n : Nat} :
    Cover (a ++ b) n ↔ Cover a n ∨ Cover b n := by
  simp only [Cover, List.mem_append, or_and_right, exists_or]

@[simp] theorem cover_singleton {n : Nat} : Cover [b] n ↔ b.first ≤ n ∧ n ≤ b.last := by
  simp [Cover]

/-- The block is a range of the lines, and a line in it ends with a semicolon exactly if it is the
last one of a block that has been executed. -/
structure Fits (lines : List Bytes) (b : Block) : Prop where
  lower : 1 ≤ b.first
  order : b.first ≤ b.last
  upper : b.last ≤ lines.length
  closes : ∀ n text, b.first ≤ n → n ≤ b.last → lines[n - 1]? = some text →
    (Closes text ↔ b.fate = .executed ∧ n = b.last)

theorem Fits.append (h : b.Fits lines) (more : List Bytes) : b.Fits (lines ++ more) where
  lower := h.lower
  order := h.order
  upper := by
    have hupper := h.upper
    rw [List.length_append]
    omega
  closes := by
    intro n text hlo hhi htext
    have hlt : n - 1 < lines.length := by
      have hlower := h.lower
      have hupper := h.upper
      omega
    rw [List.getElem?_append_left hlt] at htext
    exact h.closes n text hlo hhi htext

theorem Fits.slice_append (h : b.Fits lines) (more : List Bytes) :
    b.slice (lines ++ more) = b.slice lines := by
  rw [slice, slice, List.take_append_of_le_length h.upper]

/-- What waits can be cancelled. -/
theorem Fits.cancelled {first last : Nat} (h : Fits lines ⟨first, last, .pending⟩) :
    Fits lines ⟨first, last, .cancelled⟩ :=
  ⟨h.lower, h.order, h.upper, by simpa using h.closes⟩

end Block

namespace Session

variable {colored : Bool} {text : Bytes} {s : Session} {lines : List Bytes}

/-- The line belongs to no input: it is blank or a command, and nothing waits. -/
def Passes (text : Bytes) (s : Session) : Prop :=
  s.pending = [] ∧ (trimSpace text = [] ∨ (trimSpace text).head? = some 46)

def deed (text : Bytes) (s : Session) : Deed :=
  if s.pending = [] ∧ trimSpace text = [] then .skip
  else if s.pending = [] ∧ (trimSpace text).head? = some 46 then .obey (trimSpace text)
  else if Closes text then .execute (s.collected text) (s.extend text).start
  else .keep

@[simp] theorem deed_of_blank (hp : s.pending = []) (ht : trimSpace text = []) :
    s.deed text = .skip := if_pos ⟨hp, ht⟩
@[simp] theorem deed_of_command (hp : s.pending = []) (hd : (trimSpace text).head? = some 46) :
    s.deed text = .obey (trimSpace text) := by
  have hne : trimSpace text ≠ [] := by
    intro h
    simp [h] at hd
  rw [deed, if_neg fun h => hne h.2, if_pos ⟨hp, hd⟩]

/-- The reply to a line, and the session after it, by what is done with the line. -/
def perform (colored : Bool) (text : Bytes) (s : Session) : Deed → Reply × Session
  | .skip => (silent, { s with lines := s.lines + 1 })
  | .obey command => { s with lines := s.lines + 1 }.command command
  | .keep => (silent, s.extend text)
  | .execute src first => (s.extend text).cancel.execute colored src first

theorem deed_of_joins (h : ¬ s.Passes text) :
    s.deed text = if Closes text then .execute (s.collected text) (s.extend text).start
      else .keep := by
  rw [deed, if_neg fun hs => h ⟨hs.1, .inl hs.2⟩, if_neg fun hs => h ⟨hs.1, .inr hs.2⟩]

theorem handle_eq_perform (colored : Bool) (text : Bytes) (s : Session) :
    s.handle colored text = s.perform colored text (s.deed text) := by
  by_cases hd : s.pending = [] ∧ (trimSpace text).head? = some 46
  · rw [handle_of_command hd.1 hd.2, deed_of_command hd.1 hd.2]
    rfl
  · rcases s.handle_cases colored hd with ⟨hp, ht, hstep⟩ | ⟨hne, hstep⟩
    · rw [hstep, deed_of_blank hp ht]
      rfl
    · rw [hstep, deed, if_neg hne, if_neg hd]
      split <;> rfl

@[simp] theorem pending_command (text : Bytes) (s : Session) :
    (s.command text).2.pending = s.pending := by
  rw [command]
  split_ifs <;> rfl

@[simp] theorem runs_command (text : Bytes) (s : Session) : (s.command text).2.runs = s.runs := by
  rw [command]
  split_ifs <;> rfl

/-- A line that is passed over changes neither what waits nor what has been executed. -/
theorem handle_of_passes (colored : Bool) (h : s.Passes text) :
    (s.handle colored text).2.pending = [] ∧ (s.handle colored text).2.runs = s.runs := by
  obtain ⟨hp, hblank | hdot⟩ := h
  · rw [handle_eq_perform, deed_of_blank hp hblank]
    exact ⟨hp, rfl⟩
  · rw [handle_of_command hp hdot, pending_command, runs_command]
    exact ⟨hp, rfl⟩

theorem deed_of_passes (h : s.Passes text) (src : Bytes) (first : Nat) :
    s.deed text ≠ .execute src first := by
  obtain ⟨hp, hblank | hdot⟩ := h
  · simp [hp, hblank]
  · simp [hp, hdot]

/-- The block of what waits, if anything does, with a fate. -/
def waiting (fate : Fate) (s : Session) : List Block :=
  if s.pending = [] then [] else [⟨s.start, s.lines, fate⟩]

theorem waiting_of_idle (h : s.pending = []) (fate : Fate) : s.waiting fate = [] := if_pos h

@[simp] theorem cover_waiting {fate : Fate} {n : Nat} :
    Block.Cover (s.waiting fate) n ↔ s.pending ≠ [] ∧ s.start ≤ n ∧ n ≤ s.lines := by
  by_cases hp : s.pending = [] <;> simp [waiting, hp, Block.Cover]

@[simp] theorem waiting_extend (fate : Fate) (text : Bytes) (s : Session) :
    (s.extend text).waiting fate = [⟨(s.extend text).start, s.lines + 1, fate⟩] :=
  if_neg (s.collected_ne_nil text)

end Session

/-- A session, the texts that it has executed with the lines they start on, and the blocks that it
has executed or cancelled. -/
structure Ledger where
  session : Session
  executions : List (Bytes × Nat)
  closed : List Block

def executedIn (lines : List Bytes) (blocks : List Block) : List (Bytes × Nat) :=
  (blocks.filter (·.fate = .executed)).map fun b => (keptText (b.slice lines), b.first)

theorem executedIn_append {lines : List Bytes} {blocks : List Block}
    (h : ∀ b ∈ blocks, b.Fits lines) (more : List Bytes) :
    executedIn (lines ++ more) blocks = executedIn lines blocks := by
  refine List.map_congr_left fun b hb => ?_
  rw [(h b (List.mem_of_mem_filter hb)).slice_append]

@[simp] theorem executedIn_concat (lines : List Bytes) (blocks : List Block) (b : Block) :
    executedIn lines (blocks ++ [b]) = executedIn lines blocks ++
      if b.fate = .executed then [(keptText (b.slice lines), b.first)] else [] := by
  by_cases h : b.fate = .executed <;> simp [executedIn, h]

/-- What waits or is cancelled is not executed. -/
theorem executedIn_waiting (lines : List Bytes) (blocks : List Block) {fate : Fate}
    (hf : fate ≠ .executed) (s : Session) :
    executedIn lines (blocks ++ s.waiting fate) = executedIn lines blocks := by
  rw [Session.waiting]
  split
  · rw [List.append_nil]
  · rw [executedIn_concat, if_neg hf, List.append_nil]

namespace Ledger

def fresh : Ledger := ⟨.fresh, [], []⟩

/-- All blocks, what waits last. -/
def blocks (l : Ledger) : List Block := l.closed ++ l.session.waiting .pending

def step (colored : Bool) (l : Ledger) : SessionInput → Ledger
  | .line text =>
    match l.session.deed text with
    | .execute src first =>
      ⟨(l.session.handle colored text).2, l.executions ++ [(src, first)],
        l.closed ++ (l.session.extend text).waiting .executed⟩
    | _ => { l with session := (l.session.handle colored text).2 }
  | .interrupt => ⟨l.session.cancel, l.executions, l.closed ++ l.session.waiting .cancelled⟩
  | .bell => l

def after (colored : Bool) (inputs : List SessionInput) : Ledger :=
  inputs.foldl (step colored) fresh

variable {colored : Bool} {text : Bytes} {l : Ledger} {lines : List Bytes}

@[simp] theorem after_concat (colored : Bool) (inputs : List SessionInput) (i : SessionInput) :
    after colored (inputs ++ [i]) = (after colored inputs).step colored i := by
  simp [after]

@[simp] theorem session_step (colored : Bool) (l : Ledger) (i : SessionInput) :
    (l.step colored i).session = l.session.step colored i := by
  cases i with
  | line text =>
    simp only [step]
    split <;> rfl
  | interrupt => rfl
  | bell => rfl

/-- The account is of the session itself. -/
@[simp] theorem session_after (colored : Bool) (inputs : List SessionInput) :
    (after colored inputs).session = Session.after colored inputs := by
  induction inputs using List.reverseRecOn with
  | nil => rfl
  | append_singleton inputs i ih =>
    rw [after_concat, session_step, ih]
    simp [Session.after]

theorem blocks_of_idle (h : l.session.pending = []) : l.blocks = l.closed := by
  rw [blocks, Session.waiting_of_idle h, List.append_nil]

theorem step_of_passes (colored : Bool) (h : l.session.Passes text) :
    l.step colored (.line text) = { l with session := (l.session.handle colored text).2 } := by
  simp only [step]
  split
  · rename_i hdeed
    exact absurd hdeed (Session.deed_of_passes h _ _)
  · rfl

theorem step_of_keeps (colored : Bool) (h : ¬ l.session.Passes text) (hc : ¬ Closes text) :
    l.step colored (.line text) = { l with session := l.session.extend text } := by
  have hdeed := Session.deed_of_joins h
  rw [if_neg hc] at hdeed
  have hhandle := l.session.handle_eq_perform colored text
  rw [hdeed] at hhandle
  simp only [step, hdeed, hhandle]
  rfl

theorem step_of_closes (colored : Bool) (h : ¬ l.session.Passes text) (hc : Closes text) :
    let b : Block := ⟨(l.session.extend text).start, l.session.lines + 1, .executed⟩
    let src := l.session.collected text
    l.step colored (.line text) =
      ⟨((l.session.extend text).cancel.execute colored src b.first).2,
        l.executions ++ [(src, b.first)], l.closed ++ [b]⟩ := by
  have hdeed := Session.deed_of_joins h
  rw [if_pos hc] at hdeed
  have hhandle := l.session.handle_eq_perform colored text
  rw [hdeed] at hhandle
  simp only [step, hdeed, hhandle, Session.waiting_extend]
  rfl

/-- A line is passed over, or joins what waits and is kept or closes it. -/
theorem step_line_cases (colored : Bool) (l : Ledger) (text : Bytes) :
    let next := l.step colored (.line text)
    (l.session.Passes text ∧ next.session.runs = l.session.runs ∧
      next.executions = l.executions ∧ next.blocks = l.blocks) ∨
    (¬ l.session.Passes text ∧ ∃ fate : Fate, (fate = .executed ↔ Closes text) ∧
      next.blocks = l.closed ++ [⟨(l.session.extend text).start, l.session.lines + 1, fate⟩] ∧
      next.session.runs = l.session.runs + (if Closes text then 1 else 0) ∧
      next.executions = l.executions ++
        if Closes text then [(l.session.collected text, (l.session.extend text).start)] else []) := by
  intro next
  by_cases hpass : l.session.Passes text
  · left
    obtain ⟨hpending, hruns⟩ := Session.handle_of_passes colored hpass
    have hnext : next = _ := step_of_passes colored hpass
    rw [hnext, blocks_of_idle hpass.1]
    exact ⟨hpass, hruns, rfl, blocks_of_idle hpending⟩
  · refine .inr ⟨hpass, ?_⟩
    by_cases hc : Closes text
    · have hnext : next = _ := step_of_closes colored hpass hc
      rw [hnext, if_pos hc, if_pos hc]
      exact ⟨.executed, iff_of_true rfl hc, blocks_of_idle rfl, rfl, rfl⟩
    · have hnext : next = _ := step_of_keeps colored hpass hc
      rw [hnext, if_neg hc, if_neg hc, List.append_nil]
      refine ⟨.pending, iff_of_false (by simp) hc, ?_, rfl, rfl⟩
      rw [blocks, Session.waiting_extend]

/-- The blocks are ranges of the lines in increasing order, and the executed ones are what the
session has executed. -/
structure Orderly (l : Ledger) (lines : List Bytes) : Prop where
  tracks : l.session.Tracks lines
  ordered : l.blocks.Pairwise fun a b => a.last < b.first
  fits : ∀ b ∈ l.blocks, b.Fits lines
  executions : l.executions = executedIn lines l.blocks
  runs : l.session.runs = l.executions.length

theorem orderly_fresh : fresh.Orderly [] :=
  ⟨Session.tracks_fresh, .nil, by simp [fresh, blocks, Session.waiting, Session.fresh], rfl, rfl⟩

/-- The block that a line joins starts with it, or is the one that waited. -/
theorem Orderly.start_cases (h : l.Orderly lines) (text : Bytes) :
    (l.session.extend text).start = lines.length + 1 ∨
      ⟨(l.session.extend text).start, lines.length, .pending⟩ ∈ l.session.waiting .pending := by
  have hcount := h.tracks.count
  by_cases hp : l.session.pending = []
  · left
    rw [Session.start_extend_of_idle hp, hcount]
  · right
    simp [Session.waiting, hp, hcount]

/-- The lines that waited do not end with a semicolon, and the one that joins them decides. -/
theorem Orderly.fits_join (h : l.Orderly lines) (text : Bytes) {fate : Fate}
    (hfate : fate = .executed ↔ Closes text) :
    Block.Fits (lines ++ [text]) ⟨(l.session.extend text).start, lines.length + 1, fate⟩ := by
  obtain ⟨hlo, hhi, -⟩ := (h.tracks.extend text).waiting (l.session.collected_ne_nil text)
  rw [List.length_append, List.length_singleton] at hhi
  refine ⟨hlo, hhi, by simp, ?_⟩
  intro n t hfirst hlast ht
  simp only at hfirst hlast
  rcases Nat.lt_or_ge lines.length n with hn | hn
  · obtain rfl : n = lines.length + 1 := by omega
    obtain rfl : text = t := by simpa using ht
    simp [hfate]
  · rcases h.start_cases text with hnew | hwait
    · omega
    · have hold := h.fits _ (List.mem_append_right _ hwait)
      rw [List.getElem?_append_left (by omega)] at ht
      rw [hold.closes n t hfirst hn ht]
      simp
      omega

/-- A line that joins what waits, or starts to wait, makes a block with it behind the closed ones. -/
theorem Orderly.join (h : l.Orderly lines) (text : Bytes) {fate : Fate}
    (hfate : fate = .executed ↔ Closes text) :
    let b : Block := ⟨(l.session.extend text).start, l.session.lines + 1, fate⟩
    (l.closed ++ [b]).Pairwise (fun a b => a.last < b.first) ∧
      ∀ c ∈ l.closed ++ [b], c.Fits (lines ++ [text]) := by
  intro b
  have hclosed : ∀ c ∈ l.closed, c.Fits lines :=
    fun c hc => h.fits c (List.mem_append_left _ hc)
  obtain ⟨hordered, -, hbefore⟩ := List.pairwise_append.mp h.ordered
  refine ⟨List.pairwise_append.mpr ⟨hordered, List.pairwise_singleton _ _, ?_⟩, ?_⟩
  · intro c hc d hd
    obtain rfl := List.mem_singleton.mp hd
    rcases h.start_cases text with hfirst | hwait
    · have hupper := (hclosed c hc).upper
      simp only [b]
      omega
    · have hlt := hbefore c hc _ hwait
      exact hlt
  · intro c hc
    rcases List.mem_append.mp hc with hc | hc
    · exact (hclosed c hc).append [text]
    · rw [List.mem_singleton.mp hc]
      simp only [b, h.tracks.count]
      exact h.fits_join text hfate

/-- The text that a closing line makes the session execute is that of its block. -/
theorem Orderly.keptText_slice (h : l.Orderly lines) (text : Bytes) (fate : Fate) :
    keptText (Block.slice ⟨(l.session.extend text).start, l.session.lines + 1, fate⟩
      (lines ++ [text])) = l.session.collected text := by
  obtain ⟨-, -, hkept⟩ := (h.tracks.extend text).waiting (l.session.collected_ne_nil text)
  have hall : (lines ++ [text]).take (l.session.lines + 1) = lines ++ [text] := by
    rw [h.tracks.count]
    exact List.take_of_length_le (by simp)
  rw [Block.slice, hall, ← hkept]
  rfl

theorem Orderly.line (h : l.Orderly lines) (colored : Bool) (text : Bytes) :
    (l.step colored (.line text)).Orderly (lines ++ [text]) := by
  have htracks : (l.step colored (.line text)).session.Tracks (lines ++ [text]) := by
    rw [session_step]
    exact h.tracks.handle colored text
  rcases l.step_line_cases colored text with
    ⟨-, hruns, hexec, hblocks⟩ | ⟨-, fate, hfate, hblocks, hruns, hexec⟩
  · refine ⟨htracks, hblocks ▸ h.ordered, ?_, ?_, ?_⟩
    · rw [hblocks]
      exact fun b hb => (h.fits b hb).append [text]
    · rw [hexec, hblocks, executedIn_append h.fits, h.executions]
    · rw [hruns, hexec, h.runs]
  · obtain ⟨hordered, hfits⟩ := h.join text hfate
    refine ⟨htracks, hblocks ▸ hordered, hblocks ▸ hfits, ?_, ?_⟩
    · have hclosed : executedIn (lines ++ [text]) l.closed = l.executions := by
        rw [executedIn_append fun b hb => h.fits b (List.mem_append_left _ hb), h.executions,
          blocks, executedIn_waiting _ _ (by simp)]
      rw [hexec, hblocks, executedIn_concat, hclosed]
      simp only [hfate, h.keptText_slice]
    · rw [hruns, hexec, h.runs]
      split <;> simp

@[simp] theorem blocks_interrupt (colored : Bool) (l : Ledger) :
    (l.step colored .interrupt).blocks = l.closed ++ l.session.waiting .cancelled := by
  have hidle : (l.step colored .interrupt).session.pending = [] := rfl
  rw [blocks_of_idle hidle]
  rfl

/-- Cancelling closes the block of what waits and changes nothing else. -/
theorem Orderly.interrupt (h : l.Orderly lines) (colored : Bool) :
    (l.step colored .interrupt).Orderly lines := by
  have hblocks := l.blocks_interrupt colored
  have htracks : l.session.cancel.Tracks lines := .of_idle h.tracks.count rfl
  have hexec : l.executions = executedIn lines (l.step colored .interrupt).blocks := by
    rw [hblocks, h.executions, blocks, executedIn_waiting _ _ (by simp),
      executedIn_waiting _ _ (by simp)]
  by_cases hp : l.session.pending = []
  · have hsame : (l.step colored .interrupt).blocks = l.blocks := by
      rw [hblocks, blocks_of_idle hp, Session.waiting_of_idle hp, List.append_nil]
    exact ⟨htracks, hsame ▸ h.ordered, hsame ▸ h.fits, hexec, h.runs⟩
  · obtain ⟨-, hordered, hfits, -, hruns⟩ := h
    rw [Session.waiting, if_neg hp] at hblocks
    rw [blocks, Session.waiting, if_neg hp] at hordered hfits
    refine ⟨htracks, ?_, ?_, hexec, hruns⟩
    · rw [hblocks]
      rw [List.pairwise_append] at hordered ⊢
      simpa using hordered
    · rw [hblocks]
      intro b hb
      rcases List.mem_append.mp hb with hb | hb
      · exact hfits b (List.mem_append_left _ hb)
      · rw [List.mem_singleton.mp hb]
        exact (hfits _ (by simp)).cancelled

/-- Over any inputs the account is in order. -/
theorem orderly_after (colored : Bool) (inputs : List SessionInput) :
    (after colored inputs).Orderly (inputs.flatMap SessionInput.typed) := by
  induction inputs using List.reverseRecOn with
  | nil => exact orderly_fresh
  | append_singleton inputs i ih =>
    rw [after_concat, List.flatMap_append, List.flatMap_singleton]
    cases i with
    | line text => exact ih.line colored text
    | interrupt =>
      rw [SessionInput.typed, List.append_nil]
      exact ih.interrupt colored
    | bell =>
      rw [SessionInput.typed, List.append_nil]
      exact ih

/-- What is read later does not change which of the lines so far are in a block. -/
theorem Orderly.cover_step (h : l.Orderly lines) (colored : Bool) (i : SessionInput) {n : Nat}
    (hn : n ≤ lines.length) :
    Block.Cover (l.step colored i).blocks n ↔ Block.Cover l.blocks n := by
  have hcount := h.tracks.count
  cases i with
  | line text =>
    rcases l.step_line_cases colored text with ⟨-, -, -, hblocks⟩ | ⟨-, fate, -, hblocks, -⟩
    · rw [hblocks]
    · rw [hblocks, blocks, Block.cover_append, Block.cover_append, Block.cover_singleton,
        Session.cover_waiting]
      refine or_congr_right ?_
      by_cases hp : l.session.pending = []
      · have hstart := Session.start_extend_of_idle hp text
        refine iff_of_false ?_ fun hw => hw.1 hp
        rintro ⟨hfirst, -⟩
        simp only at hfirst
        omega
      · rw [Session.start_extend_of_waiting hp]
        constructor
        · rintro ⟨hfirst, -⟩
          exact ⟨hp, hfirst, by omega⟩
        · rintro ⟨-, hfirst, hlast⟩
          exact ⟨hfirst, Nat.le_succ_of_le hlast⟩
  | interrupt =>
    rw [blocks_interrupt, blocks, Block.cover_append, Block.cover_append, Session.cover_waiting,
      Session.cover_waiting]
  | bell => rfl

/-- A line is in a block exactly if it is not passed over. -/
theorem Orderly.cover_line (h : l.Orderly lines) (colored : Bool) (text : Bytes) :
    Block.Cover (l.step colored (.line text)).blocks (lines.length + 1) ↔
      ¬ l.session.Passes text := by
  have hcount := h.tracks.count
  rcases l.step_line_cases colored text with
    ⟨hpass, -, -, hblocks⟩ | ⟨hpass, fate, -, hblocks, -⟩
  · rw [hblocks]
    refine iff_of_false ?_ (not_not.mpr hpass)
    rintro ⟨b, hb, -, hlast⟩
    have hupper := (h.fits b hb).upper
    omega
  · obtain ⟨-, hhi, -⟩ := (h.tracks.extend text).waiting (l.session.collected_ne_nil text)
    rw [List.length_append, List.length_singleton] at hhi
    rw [hblocks, Block.cover_append, Block.cover_singleton]
    exact iff_of_true (.inr ⟨hhi, (congrArg (· + 1) hcount).ge⟩) hpass

/-- Whether a line is in a block was decided when it was read. -/
theorem cover_after (colored : Bool) {inputs before rest : List SessionInput} {text : Bytes}
    (h : inputs = before ++ .line text :: rest) :
    Block.Cover (after colored inputs).blocks ((before.flatMap SessionInput.typed).length + 1) ↔
      ¬ (Session.after colored before).Passes text := by
  induction rest using List.reverseRecOn generalizing inputs with
  | nil =>
    rw [h, after_concat, ← session_after]
    exact (orderly_after colored before).cover_line colored text
  | append_singleton rest i ih =>
    have hfront := ih rfl
    have hlen : (before.flatMap SessionInput.typed).length + 1 ≤
        ((before ++ .line text :: rest).flatMap SessionInput.typed).length := by
      simp only [List.flatMap_append, List.flatMap_cons, List.length_append, SessionInput.typed,
        List.length_singleton]
      omega
    rw [← hfront, h, ← List.cons_append, ← List.append_assoc, after_concat]
    exact (orderly_after colored _).cover_step colored i hlen

/-- No line that waits ends with a semicolon. -/
theorem Orderly.not_closes (h : l.Orderly lines) (hp : l.session.pending ≠ []) :
    ∀ text ∈ lines.drop (l.session.start - 1), ¬ Closes text := by
  intro text hmem hcloses
  obtain ⟨j, hj⟩ := List.mem_iff_getElem?.mp hmem
  rw [List.getElem?_drop] at hj
  have hcount := h.tracks.count
  have hblock : Block.Fits lines ⟨l.session.start, l.session.lines, .pending⟩ :=
    h.fits _ (List.mem_append_right _ (by simp [Session.waiting, hp]))
  have hlower := hblock.lower
  simp only at hlower
  have hlt := (List.getElem?_eq_some_iff.mp hj).1
  have hindex : l.session.start - 1 + j = l.session.start + j - 1 := by omega
  rw [hindex] at hj
  have hiff := hblock.closes (l.session.start + j) text (by simp) (by simp only; omega) hj
  simp [hcloses] at hiff

end Ledger

namespace Session

variable {colored : Bool} {text : Bytes} {s : Session}

theorem prompt_eq_continuation_iff : s.prompt = continuationText ↔ s.pending ≠ [] := by
  have hne : promptText ≠ continuationText := by decide +kernel
  by_cases hp : s.pending = [] <;> simp [prompt, hp, hne]

/-- While something waits, every line joins it: none is a command, and none ends the session. -/
theorem handle_of_waiting (colored : Bool) (text : Bytes) (h : s.pending ≠ []) :
    (s.handle colored text).1.quit = false ∧ ∀ command, s.deed text ≠ .obey command := by
  have hjoins : ¬ s.Passes text := fun hpass => h hpass.1
  rw [handle_eq_perform, deed_of_joins hjoins]
  split
  · exact ⟨rfl, by simp⟩
  · exact ⟨rfl, by simp⟩

end Session

/-- The books of a session are in order after any lines and interrupts. It counts the lines; what
waits is empty or the kept text of the lines from `start` on, of which none ends with a semicolon,
and the prompt shows which; it counts what it has executed, which are the texts of the executed
blocks, whose last lines alone end with a semicolon. The blocks executed, cancelled and pending are
ranges of lines in increasing order, and a line is in none of them exactly if nothing waited when it
was read and it was blank or a command. While something waits, no line is taken for a command and
none ends the session. -/
theorem session_bookkeeping (colored : Bool) (inputs : List SessionInput) :
    let s := Session.after colored inputs
    let lines := inputs.flatMap SessionInput.typed
    let ledger := Ledger.after colored inputs
    ledger.session = s ∧ s.lines = lines.length ∧
    (s.pending = [] ∨ (1 ≤ s.start ∧ s.start ≤ s.lines ∧
      s.pending = keptText (lines.drop (s.start - 1)) ∧
      ∀ text ∈ lines.drop (s.start - 1), ¬ Closes text)) ∧
    (s.prompt = Session.continuationText ↔ s.pending ≠ []) ∧
    s.runs = ledger.executions.length ∧ ledger.executions = executedIn lines ledger.blocks ∧
    (ledger.blocks.Pairwise fun a b => a.last < b.first) ∧ (∀ b ∈ ledger.blocks, b.Fits lines) ∧
    (∀ before text rest, inputs = before ++ .line text :: rest →
      (Block.Cover ledger.blocks ((before.flatMap SessionInput.typed).length + 1) ↔
        ¬ (Session.after colored before).Passes text)) ∧
    ∀ text, s.handle colored text = s.perform colored text (s.deed text) ∧
      (s.pending ≠ [] → (s.handle colored text).1.quit = false ∧
        ∀ command, s.deed text ≠ .obey command) := by
  intro s lines ledger
  have hsession : ledger.session = s := Ledger.session_after colored inputs
  have horderly : ledger.Orderly lines := Ledger.orderly_after colored inputs
  have htracks : s.Tracks lines := hsession ▸ horderly.tracks
  have hpending : s.pending = [] ∨ (1 ≤ s.start ∧ s.start ≤ s.lines ∧
      s.pending = keptText (lines.drop (s.start - 1)) ∧
      ∀ text ∈ lines.drop (s.start - 1), ¬ Closes text) := by
    by_cases hp : s.pending = []
    · exact .inl hp
    · obtain ⟨hlo, hhi, hkept⟩ := htracks.waiting hp
      refine .inr ⟨hlo, by rw [htracks.count]; exact hhi, hkept, ?_⟩
      rw [← hsession] at hp ⊢
      exact horderly.not_closes hp
  refine ⟨hsession, htracks.count, hpending, Session.prompt_eq_continuation_iff, ?_,
    horderly.executions, horderly.ordered, horderly.fits, ?_, fun text => ⟨?_, ?_⟩⟩
  · rw [← hsession]
    exact horderly.runs
  · intro before text rest h
    exact Ledger.cover_after colored h
  · exact s.handle_eq_perform colored text
  · exact Session.handle_of_waiting colored text

/-- A blank line and a command are in no block; one block is cancelled, two are executed, the second
with a blank line in it, and one waits and takes in what would have been a command. -/
theorem session_bookkeeping_spread :
    let inputs : List SessionInput := [.line [], .line (utf8 ".vars"), .line (utf8 "print"),
      .interrupt, .line (utf8 " var a ;\t"), .line (utf8 "a ="), .line (utf8 " "),
      .line (utf8 "5; "), .line (utf8 "print a")]
    let ledger := Ledger.after false inputs
    ledger.blocks = [⟨3, 3, .cancelled⟩, ⟨4, 4, .executed⟩, ⟨5, 7, .executed⟩, ⟨8, 8, .pending⟩] ∧
    ledger.executions = [(utf8 " var a ;\n", 4), (utf8 "a =\n\n5;\n", 5)] ∧
    (Session.after false inputs).runs = 2 ∧ (Session.after false inputs).lines = 8 ∧
    (Session.after false inputs).pending ≠ [] ∧
    ((Session.after false inputs).handle false (utf8 ".quit")).1.quit = false := by
  intro inputs ledger
  obtain ⟨-, hlines, -, -, hruns, hexec, -, -, -, hhandle⟩ := session_bookkeeping false inputs
  have hblocks : ledger.blocks =
      [⟨3, 3, .cancelled⟩, ⟨4, 4, .executed⟩, ⟨5, 7, .executed⟩, ⟨8, 8, .pending⟩] := by
    decide +kernel
  have htexts : ledger.executions = [(utf8 " var a ;\n", 4), (utf8 "a =\n\n5;\n", 5)] := by
    rw [hexec, hblocks]
    decide +kernel
  have hwaits : (Session.after false inputs).pending ≠ [] := by decide +kernel
  refine ⟨hblocks, htexts, ?_, hlines, hwaits, ((hhandle (utf8 ".quit")).2 hwaits).1⟩
  rw [hruns, htexts]
  rfl

end StatementLang
