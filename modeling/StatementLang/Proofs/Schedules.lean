import Mathlib.Data.List.Basic
import StatementLang.Command.Sources

/-!
# Checking files side by side

Files may be checked at the same time, with a bound on how many. A task looks once whether the check
has been cancelled, and if so it is refused; otherwise it checks its file and writes the result into
the slot of that file. In whatever order tasks are launched, look and finish, and whenever the check
is cancelled, if ever: it comes to an end, and then it fails as a whole or every slot is filled as
it is by checking the files one after the other.
-/

namespace StatementLang

inductive Progress where
  | started
  | working
  | done
  | refused
  deriving DecidableEq, Repr

/-- The task has come to its end. -/
def Progress.Ended (p : Progress) : Prop := p = .done ∨ p = .refused

instance (p : Progress) : Decidable p.Ended := inferInstanceAs (Decidable (_ ∨ _))

/-- A check under way: the tasks launched so far, the slots for the results, why the check has been
cancelled, and the first error of a task. -/
structure Checking where
  tasks : List Progress
  results : List CheckResult
  cancelled : Option Failure
  error : Option Failure
  deriving DecidableEq, Repr

inductive Move where
  | launch
  | look (i : Nat)
  | finish (i : Nat)
  | cancel (reason : Failure)
  deriving DecidableEq, Repr

/-- The tasks that may be under way at a time: a count that is not positive stands for the number of
processors. -/
def taskLimit (processors : Nat) (jobs : Int) : Nat :=
  if jobs ≤ 0 then processors else jobs.toNat

namespace Checking

def start (paths : List Bytes) : Checking := ⟨[], paths.map fun _ => default, none, none⟩

def underWay (s : Checking) : Nat := s.tasks.count .started + s.tasks.count .working

/-- Tasks are launched in the order of the files while there is room for one more. -/
def move (files : FileTree) (paths : List Bytes) (limit : Nat) (s : Checking) :
    Move → Option Checking
  | .launch =>
    if s.tasks.length < paths.length ∧ s.underWay < limit then
      some { s with tasks := s.tasks ++ [.started] }
    else none
  | .look i =>
    if s.tasks[i]? = some .started then
      match s.cancelled with
      | none => some { s with tasks := s.tasks.set i .working }
      | some reason =>
        some { s with tasks := s.tasks.set i .refused, error := s.error.or (some reason) }
    else none
  | .finish i =>
    match s.tasks[i]?, paths[i]? with
    | some .working, some path =>
      some { s with
        tasks := s.tasks.set i .done, results := s.results.set i (checkFile files path) }
    | _, _ => none
  | .cancel reason =>
    if s.cancelled = none then some { s with cancelled := some reason } else none

def follow (files : FileTree) (paths : List Bytes) (limit : Nat) (s : Checking) :
    List Move → Option Checking
  | [] => some s
  | m :: moves => (s.move files paths limit m).bind fun t => t.follow files paths limit moves

/-- All tasks have been launched and have come to their ends. -/
def Finished (paths : List Bytes) (s : Checking) : Prop :=
  s.tasks.length = paths.length ∧ ∀ p ∈ s.tasks, p.Ended

instance (paths : List Bytes) (s : Checking) : Decidable (s.Finished paths) :=
  inferInstanceAs (Decidable (_ ∧ _))

def outcome (s : Checking) : Except Failure (List CheckResult) :=
  match s.error with
  | some f => .error f
  | none => .ok s.results

section

variable {files : FileTree} {paths : List Bytes} {limit : Nat} {s t : Checking} {m : Move}

/-- What each move does and when it is possible. -/
theorem move_cases (h : s.move files paths limit m = some t) :
    (m = .launch ∧ s.tasks.length < paths.length ∧ s.underWay < limit ∧
      t = { s with tasks := s.tasks ++ [.started] }) ∨
    (∃ i, m = .look i ∧ s.tasks[i]? = some .started ∧ s.cancelled = none ∧
      t = { s with tasks := s.tasks.set i .working }) ∨
    (∃ i reason, m = .look i ∧ s.tasks[i]? = some .started ∧ s.cancelled = some reason ∧
      t = { s with tasks := s.tasks.set i .refused, error := s.error.or (some reason) }) ∨
    (∃ i path, m = .finish i ∧ s.tasks[i]? = some .working ∧ paths[i]? = some path ∧
      t = { s with
        tasks := s.tasks.set i .done, results := s.results.set i (checkFile files path) }) ∨
    (∃ reason, m = .cancel reason ∧ s.cancelled = none ∧
      t = { s with cancelled := some reason }) := by
  cases m with
  | launch =>
    simp only [move] at h
    split at h
    · rename_i hroom
      exact .inl ⟨rfl, hroom.1, hroom.2, (Option.some.inj h).symm⟩
    · cases h
  | look i =>
    simp only [move] at h
    split at h
    · rename_i hi
      split at h
      · rename_i hc
        exact .inr (.inl ⟨i, rfl, hi, hc, (Option.some.inj h).symm⟩)
      · rename_i reason hc
        exact .inr (.inr (.inl ⟨i, reason, rfl, hi, hc, (Option.some.inj h).symm⟩))
    · cases h
  | finish i =>
    simp only [move] at h
    split at h
    · rename_i path hi hpath
      exact .inr (.inr (.inr (.inl ⟨i, path, rfl, hi, hpath, (Option.some.inj h).symm⟩)))
    · cases h
  | cancel reason =>
    simp only [move] at h
    split at h
    · rename_i hc
      exact .inr (.inr (.inr (.inr ⟨reason, rfl, hc, (Option.some.inj h).symm⟩)))
    · cases h

/-- What every move keeps is kept along a schedule. -/
theorem follow_induction (P : Checking → Prop) {moves : List Move}
    (h : s.follow files paths limit moves = some t) (hs : P s)
    (hmove : ∀ m s t, P s → s.move files paths limit m = some t → P t) : P t := by
  induction moves generalizing s with
  | nil =>
    obtain rfl := Option.some.inj h
    exact hs
  | cons m moves ih =>
    obtain ⟨u, hu, h⟩ := Option.bind_eq_some_iff.mp h
    exact ih h (hmove m s u hs hu)

end

/-- A task that ends fills its slot, one that is refused leaves an error, and only a reason to
cancel is an error. -/
structure Sound (files : FileTree) (paths : List Bytes) (limit : Nat) (s : Checking) : Prop where
  launched : s.tasks.length ≤ paths.length
  slots : s.results.length = paths.length
  filled : ∀ i : Nat, s.tasks[i]? = some .done → s.results[i]? = paths[i]?.map (checkFile files)
  failed : s.error = none ↔ s.tasks.count .refused = 0
  blamed : ∀ f, s.error = some f → s.cancelled = some f
  bounded : s.underWay ≤ limit

section

variable {files : FileTree} {paths : List Bytes} {limit : Nat} {s t : Checking} {m : Move}

theorem sound_start (files : FileTree) (paths : List Bytes) (limit : Nat) :
    (start paths).Sound files paths limit where
  launched := Nat.zero_le _
  slots := List.length_map _
  filled := by simp [start]
  failed := by simp [start]
  blamed := by simp [start]
  bounded := by simp [start, underWay]

/-- A task that goes on is counted where it comes to instead of where it was. -/
theorem count_set {tasks : List Progress} {i : Nat} {p : Progress} (h : tasks[i]? = some p)
    (q r : Progress) : (tasks.set i q).count r + (if p = r then 1 else 0) =
      tasks.count r + (if q = r then 1 else 0) := by
  obtain ⟨hi, rfl⟩ := List.getElem?_eq_some_iff.mp h
  rw [List.count_set hi]
  by_cases hr : tasks[i] = r
  · have hpos : 0 < tasks.count r := List.count_pos_iff.mpr (hr ▸ List.getElem_mem hi)
    simp only [hr, beq_self_eq_true, beq_iff_eq, if_true]
    omega
  · simp [hr]

theorem getElem?_of_set {tasks : List Progress} {i j : Nat} {p q : Progress}
    (h : (tasks.set i q)[j]? = some p) (hne : q ≠ p) : tasks[j]? = some p := by
  rw [List.getElem?_set] at h
  split at h
  · split at h
    · exact absurd (Option.some.inj h) hne
    · cases h
  · exact h

/-- A task that goes on leaves no more tasks under way. -/
theorem underWay_le {i : Nat} {p : Progress} (hi : s.tasks[i]? = some p) (hp : ¬ p.Ended)
    (q : Progress) (results : List CheckResult) (cancelled error : Option Failure) :
    underWay ⟨s.tasks.set i q, results, cancelled, error⟩ ≤ s.underWay := by
  have hstarted := count_set hi q .started
  have hworking := count_set hi q .working
  simp only [underWay]
  cases p with
  | started => cases q <;> simp at hstarted hworking <;> omega
  | working => cases q <;> simp at hstarted hworking <;> omega
  | done => exact absurd (.inl rfl) hp
  | refused => exact absurd (.inr rfl) hp

/-- Every move keeps the check sound: a launch, a task that sees that the check goes on or that it has
been cancelled, a task that fills its slot, and a cancellation. -/
theorem Sound.move (h : s.Sound files paths limit) (hm : s.move files paths limit m = some t) :
    t.Sound files paths limit := by
  rcases move_cases hm with ⟨-, hlt, hroom, rfl⟩ | ⟨i, -, hi, -, rfl⟩ |
    ⟨i, reason, -, hi, hc, rfl⟩ | ⟨i, path, -, hi, hpath, rfl⟩ | ⟨reason, -, hc, rfl⟩
  · refine ⟨?_, h.slots, ?_, by simpa using h.failed, h.blamed, ?_⟩
    · rw [List.length_append]
      exact hlt
    · intro i hi
      rw [List.getElem?_append] at hi
      split at hi
      · exact h.filled i hi
      · cases List.mem_singleton.mp (List.mem_of_getElem? hi)
    · have hone : underWay { s with tasks := s.tasks ++ [.started] } = s.underWay + 1 := by
        simp [underWay, Nat.add_right_comm]
      omega
  · have hrefused := count_set hi .working .refused
    refine ⟨by simpa using h.launched, h.slots, ?_, ?_, h.blamed, ?_⟩
    · exact fun j hj => h.filled j (getElem?_of_set hj nofun)
    · rw [h.failed]
      simp at hrefused ⊢
      omega
    · exact Nat.le_trans (underWay_le hi (by decide) _ _ _ _) h.bounded
  · have hrefused := count_set hi .refused .refused
    refine ⟨by simpa using h.launched, h.slots, ?_, ?_, ?_, ?_⟩
    · exact fun j hj => h.filled j (getElem?_of_set hj nofun)
    · simp at hrefused ⊢
      omega
    · intro f hf
      cases herr : s.error with
      | none =>
        rw [herr] at hf
        exact hc.trans hf
      | some g =>
        rw [herr] at hf
        exact h.blamed f (herr.trans hf)
    · exact Nat.le_trans (underWay_le hi (by decide) _ _ _ _) h.bounded
  · have hrefused := count_set hi .done .refused
    refine ⟨by simpa using h.launched, by simpa using h.slots, ?_, ?_, h.blamed, ?_⟩
    · intro j hj
      by_cases hij : i = j
      · subst hij
        have hlt : i < s.results.length := by
          rw [h.slots]
          exact (List.getElem?_eq_some_iff.mp hpath).1
        rw [List.getElem?_set_self hlt, hpath]
        rfl
      · rw [List.getElem?_set_ne hij] at hj ⊢
        exact h.filled j hj
    · rw [h.failed]
      simp at hrefused ⊢
      omega
    · exact Nat.le_trans (underWay_le hi (by decide) _ _ _ _) h.bounded
  · refine ⟨h.launched, h.slots, h.filled, h.failed, ?_, h.bounded⟩
    intro f hf
    have hblamed := h.blamed f hf
    rw [hc] at hblamed
    cases hblamed

theorem Sound.follow {moves : List Move} (h : s.Sound files paths limit)
    (hf : s.follow files paths limit moves = some t) : t.Sound files paths limit :=
  follow_induction (Sound files paths limit) hf h fun _ _ _ hs hm => hs.move hm

/-- A check that is finished without an error has checked every file. -/
theorem Sound.results_eq (h : s.Sound files paths limit) (hf : s.Finished paths)
    (he : s.error = none) : s.results = paths.map (checkFile files) := by
  apply List.ext_getElem?
  intro i
  rw [List.getElem?_map]
  by_cases hi : i < s.tasks.length
  · have htask := List.getElem?_eq_getElem hi
    rcases hf.2 _ (List.getElem_mem hi) with hdone | hrefused
    · exact h.filled i (htask.trans (congrArg some hdone))
    · exact absurd (hrefused ▸ List.getElem_mem hi) (List.count_eq_zero.mp (h.failed.mp he))
  · have hend : paths.length ≤ i := by
      rw [← hf.1]
      omega
    rw [List.getElem?_eq_none (h.slots ▸ hend), List.getElem?_eq_none hend]
    rfl

/-- A finished check fails for the reason for which it was cancelled, or it has all results. -/
theorem Sound.outcome_cases (h : s.Sound files paths limit) (hf : s.Finished paths) :
    (∃ f, s.outcome = .error f ∧ s.cancelled = some f) ∨
      s.outcome = .ok (paths.map (checkFile files)) := by
  cases he : s.error with
  | some f => exact .inl ⟨f, by rw [outcome, he], h.blamed f he⟩
  | none => exact .inr (by rw [outcome, he, h.results_eq hf he])

/-- As long as a check is not finished it can go on without being cancelled. -/
theorem Sound.exists_move (h : s.Sound files paths limit) (hlimit : 0 < limit)
    (hf : ¬ s.Finished paths) :
    ∃ m t, (∀ reason, m ≠ .cancel reason) ∧ s.move files paths limit m = some t := by
  by_cases hended : ∀ p ∈ s.tasks, p.Ended
  · have hidle : s.underWay = 0 := by
      have hnone : ∀ p : Progress, ¬ p.Ended → s.tasks.count p = 0 := fun p hp =>
        List.count_eq_zero_of_not_mem fun hmem => hp (hended p hmem)
      rw [underWay, hnone _ (by decide), hnone _ (by decide)]
    have hlt : s.tasks.length < paths.length :=
      Nat.lt_of_le_of_ne h.launched fun heq => hf ⟨heq, hended⟩
    refine ⟨.launch, _, nofun, if_pos ⟨hlt, ?_⟩⟩
    omega
  · push Not at hended
    obtain ⟨p, hmem, hp⟩ := hended
    obtain ⟨i, hi⟩ := List.mem_iff_getElem?.mp hmem
    cases p with
    | started =>
      refine ⟨.look i, ?_⟩
      simp only [Checking.move, hi, if_true]
      cases s.cancelled with
      | none => exact ⟨_, nofun, rfl⟩
      | some reason => exact ⟨_, nofun, rfl⟩
    | working =>
      have hlt : i < paths.length :=
        Nat.lt_of_lt_of_le (List.getElem?_eq_some_iff.mp hi).1 h.launched
      refine ⟨.finish i, ?_⟩
      simp only [Checking.move, hi, List.getElem?_eq_getElem hlt]
      exact ⟨_, nofun, rfl⟩
    | done => exact absurd (.inl rfl) hp
    | refused => exact absurd (.inr rfl) hp

/-- The moves that a check has before it at most. -/
def rank (paths : List Bytes) (s : Checking) : Nat :=
  3 * (paths.length - s.tasks.length) + 2 * s.tasks.count .started + s.tasks.count .working +
    if s.cancelled = none then 1 else 0

theorem rank_lt (hm : s.move files paths limit m = some t) : t.rank paths < s.rank paths := by
  rcases move_cases hm with ⟨-, hlt, -, rfl⟩ | ⟨i, -, hi, -, rfl⟩ | ⟨i, reason, -, hi, -, rfl⟩ |
    ⟨i, path, -, hi, -, rfl⟩ | ⟨reason, -, hc, rfl⟩
  · simp only [rank, List.length_append, List.count_append, List.length_singleton]
    simp
    omega
  · have hstarted := count_set hi .working .started
    have hworking := count_set hi .working .working
    simp at hstarted hworking
    simp only [rank, List.length_set]
    omega
  · have hstarted := count_set hi .refused .started
    have hworking := count_set hi .refused .working
    simp at hstarted hworking
    simp only [rank, List.length_set]
    omega
  · have hstarted := count_set hi .done .started
    have hworking := count_set hi .done .working
    simp at hstarted hworking
    simp only [rank, List.length_set]
    omega
  · simp [rank, hc]

theorem length_le_rank {moves : List Move} (h : s.follow files paths limit moves = some t) :
    moves.length ≤ s.rank paths := by
  induction moves generalizing s with
  | nil => exact Nat.zero_le _
  | cons m moves ih =>
    obtain ⟨u, hu, h⟩ := Option.bind_eq_some_iff.mp h
    have hless := rank_lt hu
    have hrest := ih h
    rw [List.length_cons]
    omega

/-- Only its move cancels a check, and no later one takes that back. -/
theorem cancelled_move (hm : s.move files paths limit m = some t) :
    (∃ f, m = .cancel f ∧ s.cancelled = none ∧ t.cancelled = some f) ∨
      t.cancelled = s.cancelled := by
  rcases move_cases hm with ⟨-, -, -, rfl⟩ | ⟨i, -, -, -, rfl⟩ | ⟨i, reason, -, -, -, rfl⟩ |
    ⟨i, path, -, -, -, rfl⟩ | ⟨reason, hcancel, hc, rfl⟩
  · exact .inr rfl
  · exact .inr rfl
  · exact .inr rfl
  · exact .inr rfl
  · exact .inl ⟨reason, hcancel, hc, rfl⟩

theorem cancelled_follow {moves : List Move} {f : Failure}
    (h : s.follow files paths limit moves = some t) (hs : s.cancelled = some f) :
    t.cancelled = some f := by
  refine follow_induction (fun s => s.cancelled = some f) h hs fun m s t hs hm => ?_
  rcases cancelled_move hm with ⟨g, -, hnone, -⟩ | heq
  · rw [hs] at hnone
    cases hnone
  · exact heq.trans hs

theorem cancel_mem {moves : List Move} {f : Failure}
    (h : s.follow files paths limit moves = some t) (hs : s.cancelled = none)
    (ht : t.cancelled = some f) : .cancel f ∈ moves := by
  induction moves generalizing s with
  | nil =>
    obtain rfl := Option.some.inj h
    rw [hs] at ht
    cases ht
  | cons m moves ih =>
    obtain ⟨u, hu, hrest⟩ := Option.bind_eq_some_iff.mp h
    rcases cancelled_move hu with ⟨g, rfl, -, hg⟩ | heq
    · obtain rfl := Option.some.inj ((cancelled_follow hrest hg).symm.trans ht)
      exact List.mem_cons_self
    · exact List.mem_cons_of_mem m (ih hrest (heq.trans hs))

/-- The check has been cancelled before any task has looked. -/
structure Forlorn (reason : Failure) (s : Checking) : Prop where
  cancelled : s.cancelled = some reason
  idle : ∀ p ∈ s.tasks, p = .started ∨ p = .refused

theorem Forlorn.move {reason : Failure} (h : s.Forlorn reason)
    (hm : s.move files paths limit m = some t) : t.Forlorn reason := by
  rcases move_cases hm with ⟨-, -, -, rfl⟩ | ⟨i, -, -, hc, rfl⟩ | ⟨i, r, -, -, -, rfl⟩ |
    ⟨i, path, -, hi, -, rfl⟩ | ⟨r, -, hc, rfl⟩
  · refine ⟨h.cancelled, fun p hp => ?_⟩
    rcases List.mem_append.mp hp with hp | hp
    · exact h.idle p hp
    · exact .inl (List.mem_singleton.mp hp)
  · rw [h.cancelled] at hc
    cases hc
  · refine ⟨h.cancelled, fun p hp => ?_⟩
    exact (List.mem_or_eq_of_mem_set hp).elim (h.idle p) .inr
  · rcases h.idle _ (List.mem_of_getElem? hi) with hp | hp <;> cases hp
  · rw [h.cancelled] at hc
    cases hc

/-- A check that is cancelled before it begins fails, unless it has nothing to do. -/
theorem Forlorn.outcome_eq {reason : Failure} (h : s.Forlorn reason)
    (hs : s.Sound files paths limit) (hf : s.Finished paths) :
    s.outcome = if paths ≠ [] then .error reason else .ok [] := by
  split
  · rename_i hne
    -- every task has ended and none has worked, so each of them was refused
    have hsome : s.tasks ≠ [] := by
      intro hnil
      have hlength := hf.1
      rw [hnil] at hlength
      exact hne (List.length_eq_zero_iff.mp hlength.symm)
    obtain ⟨p, hp⟩ := List.exists_mem_of_ne_nil _ hsome
    have hrefused : .refused ∈ s.tasks := by
      rcases hf.2 p hp with rfl | rfl
      · rcases h.idle _ hp with hp | hp <;> cases hp
      · exact hp
    cases he : s.error with
    | none => exact absurd hrefused (List.count_eq_zero.mp (hs.failed.mp he))
    | some f =>
      obtain rfl := Option.some.inj ((hs.blamed f he).symm.trans h.cancelled)
      rw [outcome, he]
  · rename_i hnil
    obtain rfl := not_not.mp hnil
    have hnone : s.tasks = [] := List.length_eq_zero_iff.mp hf.1
    have he : s.error = none := hs.failed.mpr (by rw [hnone]; rfl)
    rw [outcome, he, hs.results_eq hf he]
    rfl

end

end Checking

theorem taskLimit_pos {processors : Nat} (h : 0 < processors) (jobs : Int) :
    0 < taskLimit processors jobs := by
  rw [taskLimit]
  split
  · exact h
  · omega

/-- A check that is cancelled first and begun then answers like one that is not begun. -/
theorem Checking.outcome_of_cancelled {files : FileTree} {paths : List Bytes} {limit : Nat}
    {moves : List Move} {s : Checking} (h : (start paths).follow files paths limit moves = some s)
    (hfirst : moves.head? = some (.cancel checkCancelled)) (hf : s.Finished paths) :
    s.outcome = checkFiles true files paths := by
  have hsound := (sound_start files paths limit).follow h
  cases moves with
  | nil => cases hfirst
  | cons m rest =>
    obtain rfl := Option.some.inj hfirst
    obtain ⟨t, ht, hrest⟩ := Option.bind_eq_some_iff.mp h
    obtain rfl := Option.some.inj ht
    have hforlorn : s.Forlorn checkCancelled :=
      follow_induction (Forlorn checkCancelled) hrest ⟨rfl, by simp [start]⟩
        fun _ _ _ hs hm => hs.move hm
    rw [hforlorn.outcome_eq hsound hf, checkFiles]
    by_cases hnil : paths = []
    · simp [hnil]
    · simp [hnil]

/-- However the tasks of a check follow each other, with whatever bound, and wherever it is
cancelled: no more tasks are under way than allowed, the check can go on until it is finished, and
it takes three moves a file at most, and one to cancel it. A finished check fails with the reason
for which it was cancelled, or it has the result of each file in the place of that file. If it was
not cancelled it has these results, and what is reported, in the order of the files, depends neither
on the schedule nor on the bound: it is what is reported of files that are checked one after the
other. A check that is cancelled before it begins reports that. -/
theorem check_same_under_every_schedule (c : Context) (files : FileTree) (paths : List Bytes)
    (processors : Nat) (hprocessors : 0 < processors) (jobs : Int) (moves : List Move)
    (s : Checking)
    (h : (Checking.start paths).follow files paths (taskLimit processors jobs) moves = some s) :
    let own : Context := { c with settings := { c.settings with checkJobs := jobs } }
    let effect := own.reportCheck files s.outcome
    let failed := (paths.filter fun path => (checkFile files path).failure.isSome).length
    (s.underWay ≤ taskLimit processors jobs ∧ moves.length ≤ 3 * paths.length + 1 ∧
      (¬ s.Finished paths → ∃ m t, (∀ f, m ≠ .cancel f) ∧
        s.move files paths (taskLimit processors jobs) m = some t)) ∧
    (s.Finished paths →
      (∃ f, s.outcome = .error f ∧ .cancel f ∈ moves) ∨
        ∃ results, s.outcome = .ok results ∧ results.length = paths.length ∧
          ∀ i : Nat, results[i]? = paths[i]?.map (checkFile files)) ∧
    (s.Finished paths → (∀ f, .cancel f ∉ moves) →
      s.outcome = .ok (paths.map (checkFile files)) ∧ effect = c.checkAll false files paths ∧
      effect.out = paths.flatMap (fun path => c.checkOut (checkFile files path)) ∧
      effect.err = paths.flatMap (fun path => c.checkErr (checkFile files path)) ++
        c.debug "check finished" [.number "files" paths.length, .number "failed" failed] ∧
      effect.failure = if failed = 0 then none else
        some (.plain (decimal failed ++ utf8 " of " ++ decimal paths.length ++
          utf8 " files failed"))) ∧
    (s.Finished paths → moves.head? = some (.cancel checkCancelled) →
      effect = c.checkAll true files paths) := by
  intro own effect failed
  have hsound := (Checking.sound_start files paths (taskLimit processors jobs)).follow h
  refine ⟨⟨hsound.bounded, ?_, hsound.exists_move (taskLimit_pos hprocessors jobs)⟩, ?_, ?_, ?_⟩
  · have hrank : (Checking.start paths).rank paths = 3 * paths.length + 1 := by
      simp [Checking.rank, Checking.start]
    rw [← hrank]
    exact Checking.length_le_rank h
  · intro hf
    rcases hsound.outcome_cases hf with ⟨f, hout, hc⟩ | hout
    · exact .inl ⟨f, hout, Checking.cancel_mem h rfl hc⟩
    · exact .inr ⟨_, hout, by simp, by simp⟩
  · intro hf hnever
    rcases hsound.outcome_cases hf with ⟨f, -, hc⟩ | hout
    · exact absurd (Checking.cancel_mem h rfl hc) (hnever f)
    · have heffect : effect = c.checkAll false files paths := by
        simp only [effect, hout]
        rfl
      refine ⟨hout, heffect, ?_⟩
      rw [heffect]
      simp [Context.checkAll, Context.reportCheck, checkFiles, List.flatMap_map, List.filter_map,
        failed, Function.comp_def]
  · intro hf hfirst
    simp only [effect, Checking.outcome_of_cancelled h hfirst hf]
    rfl

/-- Two tasks at a time: the second one ends first, and one file is not there. The same check
cancelled while the first file is checked has no results. -/
theorem check_same_under_every_schedule_pair :
    let files : FileTree := ⟨[], [], [([utf8 "a"], utf8 "print 1;"), ([utf8 "b"], utf8 "c;")]⟩
    let paths := [utf8 "a", utf8 "b", utf8 "d"]
    let moves : List Move :=
      [.launch, .launch, .look 1, .look 0, .finish 1, .launch, .finish 0, .look 2, .finish 2]
    let stopped : List Move :=
      [.launch, .look 0, .launch, .cancel checkCancelled, .finish 0, .launch, .look 1, .look 2]
    let s : Checking := ⟨[.done, .done, .done], paths.map (checkFile files), none, none⟩
    let t : Checking := ⟨[.done, .refused, .refused],
      [checkFile files (utf8 "a"), default, default], some checkCancelled, some checkCancelled⟩
    let effect := Context.standalone.reportCheck files s.outcome
    ((Checking.start paths).follow files paths (taskLimit 8 2) moves = some s ∧
      s.Finished paths ∧ s.outcome = .ok (paths.map (checkFile files)) ∧
      effect.out = utf8 "ok a (1 statements)\n" ∧
      effect.failure = some (.plain (utf8 "2 of 3 files failed"))) ∧
    (Checking.start paths).follow files paths (taskLimit 8 2) stopped = some t ∧
    t.Finished paths ∧ ∃ f, t.outcome = .error f ∧ .cancel f ∈ stopped := by
  intro files paths moves stopped s t effect
  have hmoves : (Checking.start paths).follow files paths (taskLimit 8 2) moves = some s := by
    decide +kernel
  have hstopped : (Checking.start paths).follow files paths (taskLimit 8 2) stopped = some t := by
    decide +kernel
  have hs : s.Finished paths := by decide +kernel
  have ht : t.Finished paths := by decide +kernel
  obtain ⟨-, -, hresults, -⟩ := check_same_under_every_schedule .standalone files paths 8
    (by decide) 2 moves s hmoves
  obtain ⟨-, hcases, -⟩ := check_same_under_every_schedule .standalone files paths 8
    (by decide) 2 stopped t hstopped
  refine ⟨⟨hmoves, hs, (hresults hs (by simp [moves])).1, by decide +kernel, by decide +kernel⟩,
    hstopped, ht, ?_⟩
  rcases hcases ht with hfails | ⟨results, hout, -⟩
  · exact hfails
  · cases hout

end StatementLang
