import Mathlib.Data.List.DropRight
import StatementLang.Command.Watch
import StatementLang.Proofs.LexicalErrors

/-!
# Watching loses no change

The history of a watch is what its loop has received and done, with the files as they were at each
turn. The state of the loop says two things about it: whether the content of the target has changed
at all, and whether it has changed since the latest re-run. So a re-run always answers a change, no
change goes unanswered once the timer expires, and what a re-run writes depends on the file at that
moment only.
-/

namespace StatementLang

/-- A turn of the loop: the files at that moment, what was received and what was done about it. -/
structure WatchTurn where
  files : FileTree
  signal : WatchSignal
  action : WatchAction

/-- The turn received a write or a creation of the target. -/
def WatchTurn.isChange (target : Bytes) (t : WatchTurn) : Bool :=
  match t.signal with
  | .event path changes => Path.clean path = target ∧ (.write ∈ changes ∨ .create ∈ changes)
  | _ => false

def WatchTurn.isRerun (t : WatchTurn) : Bool := t.action = .rerun

theorem WatchLoop.concerns_iff {target path : Bytes} {changes : List ChangeKind} :
    concerns target path changes ↔
      Path.clean path = target ∧ (.write ∈ changes ∨ .create ∈ changes) := by
  have hcontent : ∀ k : ChangeKind, k.isContent ↔ k = .write ∨ k = .create := by
    intro k
    cases k <;> decide
  simp [concerns, hcontent, and_or_left, exists_or]

@[simp] theorem WatchTurn.isChange_event (target path : Bytes) (files : FileTree)
    (changes : List ChangeKind) (a : WatchAction) :
    isChange target ⟨files, .event path changes, a⟩ = WatchLoop.concerns target path changes :=
  Bool.eq_iff_iff.mpr (decide_eq_true_iff.trans WatchLoop.concerns_iff.symm)

@[simp] theorem WatchTurn.isRerun_iff {t : WatchTurn} : t.isRerun ↔ t.action = .rerun :=
  decide_eq_true_iff

/-- The turns behind the latest re-run, or all if there was none. -/
def sinceRerun (history : List WatchTurn) : List WatchTurn :=
  history.rtakeWhile fun t => !t.isRerun

theorem sinceRerun_concat (history : List WatchTurn) (t : WatchTurn) :
    sinceRerun (history ++ [t]) = if t.isRerun then [] else sinceRerun history ++ [t] := by
  cases h : t.isRerun <;> simp [sinceRerun, h]

/-- What can have happened since the loop began, and the loop that this has led to. The timer expires
only while its expiry is waited for, and nothing happens once the watch has been stopped. -/
inductive Watched (target : Bytes) : List WatchTurn → WatchLoop → Prop
  | begin : Watched target [] .idle
  | turn {history : List WatchTurn} {w v : WatchLoop} {s : WatchSignal} {a : WatchAction}
      (hw : Watched target history w) (files : FileTree) (hexpiry : s = .expiry → w.armed)
      (hgoing : ∀ t ∈ history, t.action ≠ .stop) (hstep : w.step target s = (v, a)) :
      Watched target (history ++ [⟨files, s, a⟩]) v

namespace WatchLoop

variable {target : Bytes} {w v : WatchLoop} {s : WatchSignal} {a : WatchAction}

@[simp] theorem step_change {path : Bytes} {changes : List ChangeKind}
    (hc : concerns target path changes) (w : WatchLoop) :
    w.step target (.event path changes) = (⟨true, true⟩, .wait) := if_pos hc
@[simp] theorem step_other {path : Bytes} {changes : List ChangeKind}
    (hc : concerns target path changes = false) (w : WatchLoop) :
    w.step target (.event path changes) = (w, .wait) := by simp [step, hc]
@[simp] theorem step_awaited (target : Bytes) (h : w.armed) :
    w.step target .expiry = ({ w with armed := false }, .rerun) := if_pos h
@[simp] theorem step_unawaited (target : Bytes) (h : w.armed = false) :
    w.step target .expiry = (w, .wait) := by simp [step, h]

/-- A change arms the timer, an expiry that is waited for runs the program, and nothing else changes
the loop. -/
theorem step_cases (h : w.step target s = (v, a)) :
    (∃ path changes, s = .event path changes ∧ concerns target path changes ∧ v = ⟨true, true⟩ ∧
      a = .wait) ∨
    (s = .expiry ∧ w.armed ∧ v = { w with armed := false } ∧ a = .rerun) ∨
    ((∀ path changes, s = .event path changes → concerns target path changes = false) ∧ v = w ∧
      a ≠ .rerun) := by
  cases s with
  | event path changes =>
    cases hc : concerns target path changes with
    | true =>
      rw [step_change hc] at h
      cases h
      exact .inl ⟨path, changes, rfl, hc, rfl, rfl⟩
    | false =>
      rw [step_other hc] at h
      cases h
      refine .inr (.inr ⟨?_, rfl, nofun⟩)
      rintro path changes ⟨⟩
      exact hc
  | expiry =>
    cases harmed : w.armed with
    | true =>
      rw [step_awaited target harmed] at h
      cases h
      exact .inr (.inl ⟨rfl, rfl, rfl, rfl⟩)
    | false =>
      rw [step_unawaited target harmed] at h
      cases h
      exact .inr (.inr ⟨nofun, rfl, nofun⟩)
  | fault reason =>
    cases h
    exact .inr (.inr ⟨nofun, rfl, nofun⟩)
  | cancel =>
    cases h
    exact .inr (.inr ⟨nofun, rfl, nofun⟩)

end WatchLoop

namespace Watched

open WatchLoop

variable {target : Bytes} {history : List WatchTurn} {w : WatchLoop}

/-- The loop knows whether there was a change, and whether there was one since the latest re-run. -/
theorem loop_eq (h : Watched target history w) :
    w = ⟨history.any (WatchTurn.isChange target),
      (sinceRerun history).any (WatchTurn.isChange target)⟩ := by
  induction h with
  | begin => rfl
  | @turn history w v s a hw files hexpiry hgoing hstep ih =>
    rw [List.any_append, sinceRerun_concat]
    rcases step_cases hstep with ⟨path, changes, rfl, hchange, rfl, rfl⟩ | ⟨rfl, -, rfl, rfl⟩ |
      ⟨hother, rfl, hquiet⟩
    · simp [hchange]
    · rw [ih]
      simp [WatchTurn.isChange]
    · have hkept : WatchTurn.isRerun ⟨files, s, a⟩ = false := decide_eq_false hquiet
      have hunchanged : WatchTurn.isChange target ⟨files, s, a⟩ = false := by
        cases s with
        | event path changes => simp [hother path changes rfl]
        | _ => rfl
      simpa [hkept, hunchanged] using ih

/-- The last turn is a step of the loop that the turns before it have led to. -/
theorem step_of_concat {t : WatchTurn} (h : Watched target (history ++ [t]) w) :
    ∃ v, Watched target history v ∧ v.step target t.signal = (w, t.action) := by
  generalize hall : history ++ [t] = all at h
  cases h with
  | begin => simp at hall
  | turn hv files hexpiry hgoing hstep =>
    obtain ⟨rfl, hlast⟩ := List.append_inj' hall rfl
    cases hlast
    exact ⟨_, hv, hstep⟩

/-- A history goes through the histories that it begins with. -/
theorem exists_of_append {later : List WatchTurn} (h : Watched target (history ++ later) w) :
    ∃ v, Watched target history v := by
  induction later using List.reverseRecOn generalizing w with
  | nil =>
    rw [List.append_nil] at h
    exact ⟨w, h⟩
  | append_singleton later t ih =>
    rw [← List.append_assoc] at h
    obtain ⟨v, hv, -⟩ := h.step_of_concat
    exact ih hv

/-- Re-runs do not outnumber changes, and while the timer is armed a change is still unanswered. -/
theorem countP_rerun_le (h : Watched target history w) :
    history.countP WatchTurn.isRerun + w.armed.toNat ≤
      history.countP (WatchTurn.isChange target) := by
  induction h with
  | begin => exact Nat.le_refl 0
  | @turn history w v s a hw files hexpiry hgoing hstep ih =>
    rw [List.countP_append, List.countP_append, List.countP_singleton, List.countP_singleton]
    rcases step_cases hstep with ⟨path, changes, rfl, hchange, rfl, rfl⟩ |
      ⟨rfl, harmed, rfl, rfl⟩ | ⟨-, rfl, hquiet⟩
    · have hcounted : WatchTurn.isChange target ⟨files, .event path changes, .wait⟩ := by
        rw [WatchTurn.isChange_event, hchange]
      have hkept : WatchTurn.isRerun ⟨files, .event path changes, .wait⟩ = false := rfl
      rw [if_pos hcounted, hkept]
      simp only [Bool.false_eq_true, ↓reduceIte, Bool.toNat_true]
      omega
    · have hanswered : WatchTurn.isRerun ⟨files, .expiry, .rerun⟩ := rfl
      rw [if_pos hanswered]
      simp only [harmed, Bool.toNat_true, Bool.toNat_false] at ih ⊢
      omega
    · have hkept : WatchTurn.isRerun ⟨files, s, a⟩ = false := decide_eq_false hquiet
      rw [hkept]
      simp only [Bool.false_eq_true, ↓reduceIte]
      omega

/-- A re-run answers a change since the re-run before it. -/
theorem change_of_rerun {front rest : List WatchTurn} {t : WatchTurn}
    (h : Watched target (front ++ t :: rest) w) (ht : t.action = .rerun) :
    (sinceRerun front).any (WatchTurn.isChange target) := by
  rw [List.append_cons] at h
  obtain ⟨u, hu⟩ := h.exists_of_append
  obtain ⟨v, hv, hlast⟩ := hu.step_of_concat
  rcases step_cases hlast with ⟨path, changes, -, -, -, hwait⟩ | ⟨-, harmed, -, -⟩ | ⟨-, -, hquiet⟩
  · rw [ht] at hwait
    cases hwait
  · rw [hv.loop_eq] at harmed
    exact harmed
  · exact absurd ht hquiet

end Watched

namespace Context

variable (c : Context) {files other : FileTree} {path : Bytes}

/-- Running a file depends on what is read from it, and leaves the files alone. -/
theorem runFile_congr (h : readSource files path = readSource other path) :
    c.runFile files path = { c.runFile other path with files := files } := by
  rw [runFile, runFile, h]
  cases readSource other path with
  | error f => rfl
  | ok src =>
    dsimp only
    split <;> rfl

theorem watchedRerun_congr (h : readSource files path = readSource other path) :
    c.watchedRerun files path = { c.watchedRerun other path with files := files } := by
  rw [watchedRerun, watchedRerun, watchedRun, watchedRun, c.runFile_congr h]
  simp only [Effect.reported]
  split <;> rfl

@[simp] theorem out_watchedRerun (files : FileTree) (path : Bytes) :
    (c.watchedRerun files path).out = (c.runFile files path).out := by
  rw [watchedRerun, watchedRun, Effect.reported]
  split <;> simp

theorem out_watchTurn {a : WatchAction} (h : a ≠ .rerun) :
    (c.watchTurn files path a).out = [] := by
  cases a with
  | rerun => exact absurd rfl h
  | _ => rfl

/-- No turn ends the watch with a failure or touches a file. -/
theorem watchTurn_harmless (a : WatchAction) :
    (c.watchTurn files path a).failure = none ∧ (c.watchTurn files path a).files = files := by
  cases a with
  | rerun =>
    refine ⟨?_, congrArg Effect.files (c.watchedRerun_congr rfl)⟩
    rw [watchTurn, watchedRerun, watchedRun, Effect.failure_after, Effect.reported]
    split
    · assumption
    · rfl
  | _ => exact ⟨rfl, rfl⟩

end Context

/-- A watch loses no change and does not run without one. Its timer is armed exactly if the content
of the target has changed since the latest re-run, or since the loop began, and then the expiry runs
the program. Every re-run has such a change in front of it, so re-runs do not outnumber changes.
Events of other paths, and events that are neither a write nor a creation, leave the loop as it is.
No turn fails or touches a file, and turns other than re-runs write nothing. A re-run writes what
running the file writes at that moment, from an empty table, and all it does is determined by what is
read from the file. -/
theorem watch_answers_changes {target : Bytes} {history : List WatchTurn} {w : WatchLoop}
    (h : Watched target history w) :
    ((w.armed = false ↔ ∀ t ∈ sinceRerun history, t.isChange target = false) ∧
      (w.armed → (w.step target .expiry).2 = .rerun)) ∧
    (∀ front t rest, history = front ++ t :: rest → t.action = .rerun →
      ∃ u ∈ sinceRerun front, u.isChange target) ∧
    history.countP WatchTurn.isRerun ≤ history.countP (WatchTurn.isChange target) ∧
    (∀ name changes, (Path.clean name ≠ target ∨ .write ∉ changes ∧ .create ∉ changes) →
      w.step target (.event name changes) = (w, .wait)) ∧
    ∀ (c : Context) (path : Bytes), ∀ t ∈ history,
      let effect := c.watchTurn t.files path t.action
      (effect.failure = none ∧ effect.files = t.files) ∧
      (t.action ≠ .rerun → effect.out = []) ∧
      (t.action = .rerun → effect.out = (c.runFile t.files path).out ∧
        (∀ src, readSource t.files path = .ok src →
          effect.out = Sink.written (execute Sink.writer src .empty []).machine.sink) ∧
        ∀ files, readSource files path = readSource t.files path →
          c.watchTurn files path .rerun = { effect with files }) := by
  refine ⟨⟨?_, ?_⟩, ?_, ?_, ?_, ?_⟩
  · rw [h.loop_eq]
    simp
  · intro harmed
    rw [WatchLoop.step_awaited target harmed]
  · intro front t rest hhistory ht
    rw [hhistory] at h
    exact List.any_eq_true.mp (h.change_of_rerun ht)
  · have hcount := h.countP_rerun_le
    omega
  · intro name changes hother
    have hfree : WatchLoop.concerns target name changes = false := by
      rw [← Bool.not_eq_true, WatchLoop.concerns_iff]
      tauto
    exact WatchLoop.step_other hfree w
  · intro c path t ht effect
    refine ⟨c.watchTurn_harmless t.action, c.out_watchTurn, ?_⟩
    intro hrerun
    have heffect : effect = c.watchedRerun t.files path := by
      simp only [effect, hrerun]
      rfl
    rw [heffect]
    have hout := c.out_watchedRerun t.files path
    exact ⟨hout, fun src hread => hout.trans (out_runFile c hread),
      fun files hsame => c.watchedRerun_congr hsame⟩

/-- The first re-run answers two changes at once and fails; the second one does not know of it. -/
theorem watch_answers_changes_failed_run :
    let path := utf8 "p.xp"
    let target := utf8 "/p.xp"
    let broken : FileTree := ⟨[], [], [([path], utf8 "var a; a = 1; print a; print b;")]⟩
    let mended : FileTree := ⟨[], [], [([path], utf8 "var a; print a;")]⟩
    let front : List WatchTurn := [⟨broken, .event (utf8 "/q.xp") [.write], .wait⟩,
      ⟨broken, .event (utf8 "/./p.xp") [.create], .wait⟩, ⟨broken, .event target [.write], .wait⟩,
      ⟨broken, .expiry, .rerun⟩, ⟨mended, .event target [.attributes, .write], .wait⟩]
    let last : WatchTurn := ⟨mended, .expiry, .rerun⟩
    Watched target (front ++ [last]) ⟨true, false⟩ ∧
    (∃ u ∈ sinceRerun front, u.isChange target) ∧
    (front ++ [last]).countP WatchTurn.isRerun ≤
      (front ++ [last]).countP (WatchTurn.isChange target) ∧
    (∀ t ∈ sinceRerun (front ++ [last]), t.isChange target = false) ∧
    WatchLoop.step target ⟨true, false⟩ (.event target [.remove]) = (⟨true, false⟩, .wait) ∧
    (Context.standalone.runFile broken path).failure ≠ none ∧
    (Context.standalone.watchTurn mended path .rerun).out = utf8 "0\n" := by
  intro path target broken mended front last
  have hstray : Watched target (front.take 1) .idle :=
    Watched.begin.turn broken nofun (by decide +kernel) (by decide +kernel)
  have hcreated : Watched target (front.take 2) ⟨true, true⟩ :=
    hstray.turn broken nofun (by decide +kernel) (by decide +kernel)
  have hwritten : Watched target (front.take 3) ⟨true, true⟩ :=
    hcreated.turn broken nofun (by decide +kernel) (by decide +kernel)
  have hfailed : Watched target (front.take 4) ⟨true, false⟩ :=
    hwritten.turn broken (fun _ => rfl) (by decide +kernel) rfl
  have hmended : Watched target front ⟨true, true⟩ :=
    hfailed.turn mended nofun (by decide +kernel) (by decide +kernel)
  have h : Watched target (front ++ [last]) ⟨true, false⟩ :=
    hmended.turn mended (fun _ => rfl) (by decide +kernel) rfl
  obtain ⟨⟨harmed, -⟩, hanswers, hcount, hother, hout⟩ := watch_answers_changes h
  refine ⟨h, hanswers front last [] rfl rfl, hcount, harmed.mp rfl,
    hother target [.remove] (.inr (by decide)), by decide +kernel, ?_⟩
  obtain ⟨-, -, hrerun⟩ := hout Context.standalone path last (by simp)
  rw [(hrerun rfl).2.1 (utf8 "var a; print a;") (by decide +kernel)]
  decide +kernel

end StatementLang
