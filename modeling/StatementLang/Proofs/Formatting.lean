import StatementLang.Proofs.CanonicalForm
import StatementLang.Proofs.LexicalErrors

/-!
# Formatting files in place

Formatting writes files while it goes through its arguments, and a later argument may name a file
that has been written already. The content of a file changes only into its canonical form, which
scans, is its own canonical form and runs alike. So what is wrong with an argument, and what its file
becomes, can be told from the files as they were at first.
-/

namespace StatementLang

namespace FileTree

variable {t u v : FileTree}

@[simp] theorem map_fst_setContent (location : List Bytes) (content : Bytes)
    (files : List (List Bytes × Bytes)) :
    (setContent location content files).map Prod.fst = files.map Prod.fst := by
  induction files with
  | nil => rfl
  | cons f files ih =>
    obtain ⟨l, old⟩ := f
    by_cases h : l = location
    · rw [setContent, if_pos h]
      rfl
    · rw [setContent, if_neg h, List.map_cons, List.map_cons, ih]

@[simp] theorem lookup_setContent (location l : List Bytes) (content : Bytes)
    (files : List (List Bytes × Bytes)) :
    (setContent location content files).lookup l =
      if l = location then (files.lookup l).map fun _ => content else files.lookup l := by
  induction files with
  | nil => simp [setContent]
  | cons f files ih =>
    obtain ⟨m, old⟩ := f
    by_cases h : m = location
    · rw [setContent, if_pos h, List.lookup_cons, List.lookup_cons]
      by_cases hl : l = location
      · simp [h, hl]
      · have hlm : (l == m) = false := by simp [h, hl]
        simp [hlm, hl]
    · rw [setContent, if_neg h, List.lookup_cons, List.lookup_cons, ih]
      by_cases hl : l = m
      · simp [hl, h]
      · have hlm : (l == m) = false := by simp [hl]
        simp [hlm]

/-- The trees have files and directories at the same places. -/
structure SameNames (t u : FileTree) : Prop where
  current : u.current = t.current
  directories : u.directories = t.directories
  names : u.files.map Prod.fst = t.files.map Prod.fst

namespace SameNames

theorem refl (t : FileTree) : SameNames t t := ⟨rfl, rfl, rfl⟩

theorem trans (h : SameNames t u) (h' : SameNames u v) : SameNames t v :=
  ⟨h'.current.trans h.current, h'.directories.trans h.directories, h'.names.trans h.names⟩

theorem isDirectory_eq (h : SameNames t u) : u.isDirectory = t.isDirectory := by
  funext location
  have hany : ∀ files : List (List Bytes × Bytes),
      (files.any fun f => location.isPrefixOf f.1 && location.length < f.1.length) =
        (files.map Prod.fst).any fun l => location.isPrefixOf l && location.length < l.length := by
    intro files
    rw [List.any_map]
    rfl
  rw [isDirectory, isDirectory, hany, hany, h.names, h.current, h.directories]

theorem isPresent_eq (h : SameNames t u) : u.isPresent = t.isPresent := by
  funext location
  have hfound : ∀ files : List (List Bytes × Bytes),
      (files.lookup location).isSome = decide (location ∈ files.map Prod.fst) := by
    intro files
    rw [Bool.eq_iff_iff, List.lookup_isSome_iff]
    simp
  rw [isPresent, isPresent, content?, content?, hfound, hfound, h.names, h.isDirectory_eq]

/-- Paths lead to the same places. -/
theorem resolve_eq (h : SameNames t u) : u.resolve = t.resolve := by
  have henter : u.enter = t.enter := by
    funext here name
    rw [enter, enter, h.isDirectory_eq, h.isPresent_eq]
  funext path
  rw [resolve, resolve, henter, h.current]

end SameNames

theorem sameNames_write (t : FileTree) (path content : Bytes) :
    SameNames t (t.write path content) := by
  rw [write]
  split
  · exact .refl t
  · exact ⟨rfl, rfl, map_fst_setContent ..⟩

theorem content?_write {path : Bytes} {location : List Bytes} (h : t.resolve path = .ok location)
    (content : Bytes) (l : List Bytes) :
    (t.write path content).content? l =
      if l = location then (t.content? l).map fun _ => content else t.content? l := by
  rw [write, h]
  exact lookup_setContent location l content t.files

end FileTree

/-- The canonical form of a source scans, to the same lexemes, and formatting has nothing to do on
it. -/
theorem settled_of_canonical {src out : Bytes} (h : canonical src = .ok out) :
    (tokenize out).error = none ∧ (tokenize out).lexemes = (tokenize src).lexemes ∧
      canonical out = .ok out := by
  obtain ⟨ts, hts, rfl⟩ := exists_arranged h
  obtain ⟨out, ls, hout, hsrc, hlexes⟩ := canonical_lexes (tokenize_error_of_canonical h)
  obtain rfl := Except.ok.inj (hout.symm.trans h)
  obtain ⟨herr, hsame⟩ := tokenize_eq_of_lexes hsrc hlexes
  exact ⟨herr, hsame, canonical_spell_arranged hts⟩

/-- A file is read where its path leads. -/
theorem readSource_eq_ok_iff {files : FileTree} {path src : Bytes} :
    readSource files path = .ok src ↔
      ∃ location, files.resolve path = .ok location ∧ files.content? location = some src := by
  rw [readSource, FileTree.read]
  cases files.resolve path with
  | error p => simp
  | ok location => cases h : files.content? location <;> simp [h]

/-- What keeps a file from being formatted: it cannot be read, or its text does not scan. -/
def sourceProblem (files : FileTree) (path : Bytes) : Option Failure :=
  match readSource files path with
  | .error f => some f
  | .ok src => (tokenize src).error.map fun e => .inSource path (.scan e)

theorem sourceProblem_eq_none_iff {files : FileTree} {path : Bytes} :
    sourceProblem files path = none ↔
      ∃ src out, readSource files path = .ok src ∧ canonical src = .ok out := by
  rw [sourceProblem]
  cases readSource files path with
  | error f => simp
  | ok src =>
    constructor
    · intro h
      exact ⟨src, _, rfl, canonical_of_scan (Option.map_eq_none_iff.mp h)⟩
    · rintro ⟨src', out, ⟨⟩, h⟩
      exact Option.map_eq_none_iff.mpr (tokenize_error_of_canonical h)

/-- `u` is `t` with the files that the paths name in canonical form. -/
structure FileTree.FormattedAt (paths : List Bytes) (t u : FileTree) : Prop where
  shape : t.SameNames u
  formatted : ∀ path ∈ paths, ∃ location src out, t.resolve path = .ok location ∧
    t.content? location = some src ∧ canonical src = .ok out ∧ u.content? location = some out
  kept : ∀ location, (∀ path ∈ paths, t.resolve path ≠ .ok location) →
    u.content? location = t.content? location

namespace FileTree.FormattedAt

variable {t u v : FileTree} {paths more : List Bytes} {path : Bytes}

theorem refl (t : FileTree) : FormattedAt [] t t := ⟨.refl t, nofun, fun _ _ => rfl⟩

theorem single {location : List Bytes} {src out : Bytes} (hshape : t.SameNames u)
    (hl : t.resolve path = .ok location) (hsrc : t.content? location = some src)
    (hout : canonical src = .ok out) (hu : u.content? location = some out)
    (hkept : ∀ l, l ≠ location → u.content? l = t.content? l) : FormattedAt [path] t u := by
  refine ⟨hshape, ?_, ?_⟩
  · intro p hp
    obtain rfl := List.mem_singleton.mp hp
    exact ⟨location, src, out, hl, hsrc, hout, hu⟩
  · intro l hother
    apply hkept
    rintro rfl
    exact hother path List.mem_cons_self hl

/-- At every place the content is kept or put into canonical form. -/
theorem content_cases (h : FormattedAt paths t u) (location : List Bytes) :
    u.content? location = t.content? location ∨
    ∃ src out, t.content? location = some src ∧ canonical src = .ok out ∧
      u.content? location = some out := by
  by_cases hnamed : ∃ path ∈ paths, t.resolve path = .ok location
  · obtain ⟨path, hpath, hresolve⟩ := hnamed
    obtain ⟨l, src, out, hl, hsrc, hout, hu⟩ := h.formatted path hpath
    obtain rfl : location = l := Except.ok.inj (hresolve.symm.trans hl)
    exact .inr ⟨src, out, hsrc, hout, hu⟩
  · have hother : ∀ path ∈ paths, t.resolve path ≠ .ok location :=
      fun path hpath hresolve => hnamed ⟨path, hpath, hresolve⟩
    exact .inl (h.kept location hother)

theorem trans (h : FormattedAt paths t u) (h' : FormattedAt more u v) :
    FormattedAt (paths ++ more) t v := by
  refine ⟨h.shape.trans h'.shape, ?_, ?_⟩
  · intro path hpath
    rcases List.mem_append.mp hpath with hfirst | hlater
    · obtain ⟨location, src, out, hl, hsrc, hout, hu⟩ := h.formatted path hfirst
      refine ⟨location, src, out, hl, hsrc, hout, ?_⟩
      rcases h'.content_cases location with hv | ⟨src', out', hu', hout', hv⟩
      · rw [hv, hu]
      · obtain rfl : out = src' := Option.some.inj (hu.symm.trans hu')
        rw [hv, Except.ok.inj (hout'.symm.trans (settled_of_canonical hout).2.2)]
    · obtain ⟨location, src', out', hl, hsrc', hout', hv⟩ := h'.formatted path hlater
      rw [h.shape.resolve_eq] at hl
      rcases h.content_cases location with hu | ⟨src, out, hsrc, hout, hu⟩
      · rw [hu] at hsrc'
        exact ⟨location, src', out', hl, hsrc', hout', hv⟩
      · obtain rfl : out = src' := Option.some.inj (hu.symm.trans hsrc')
        obtain rfl : out = out' :=
          Except.ok.inj ((settled_of_canonical hout).2.2.symm.trans hout')
        exact ⟨location, src, out, hl, hsrc, hout, hv⟩
  · intro location hother
    have hmore : ∀ path ∈ more, u.resolve path ≠ .ok location := by
      intro path hpath
      rw [h.shape.resolve_eq]
      exact hother path (List.mem_append_right paths hpath)
    rw [h'.kept location hmore,
      h.kept location fun path hpath => hother path (List.mem_append_left more hpath)]

/-- The files that are named are read in canonical form. -/
theorem exists_readSource (h : FormattedAt paths t u) (hpath : path ∈ paths) :
    ∃ src out, readSource t path = .ok src ∧ canonical src = .ok out ∧
      readSource u path = .ok out := by
  obtain ⟨location, src, out, hl, hsrc, hout, hu⟩ := h.formatted path hpath
  refine ⟨src, out, readSource_eq_ok_iff.mpr ⟨location, hl, hsrc⟩, hout, ?_⟩
  rw [readSource_eq_ok_iff, h.shape.resolve_eq]
  exact ⟨location, hl, hu⟩

/-- Formatting other files, or the same ones, does not change what is wrong with a file. -/
theorem sourceProblem_eq (h : FormattedAt paths t u) : sourceProblem u = sourceProblem t := by
  funext path
  cases hresolve : t.resolve path with
  | error p => simp only [sourceProblem, readSource, read, h.shape.resolve_eq, hresolve]
  | ok location =>
    rcases h.content_cases location with hu | ⟨src, out, hsrc, hout, hu⟩
    · simp only [sourceProblem, readSource, read, h.shape.resolve_eq, hresolve, hu]
    · have ht : sourceProblem t path = none := sourceProblem_eq_none_iff.mpr
        ⟨src, out, readSource_eq_ok_iff.mpr ⟨location, hresolve, hsrc⟩, hout⟩
      have hu : sourceProblem u path = none := sourceProblem_eq_none_iff.mpr
        ⟨out, out, readSource_eq_ok_iff.mpr ⟨location, by rw [h.shape.resolve_eq, hresolve], hu⟩,
          (settled_of_canonical hout).2.2⟩
      rw [ht, hu]

end FileTree.FormattedAt

/-- Program errors in one file, of one kind and with one message. -/
def Failure.SameIn (path : Bytes) (f g : Failure) : Prop :=
  ∃ e d : ProgramError, f = .inSource path (.program e) ∧ g = .inSource path (.program d) ∧
    e.kind = d.kind ∧ e.message = d.message

/-- Writing a file in place formats it and nothing else. -/
theorem FormatMode.stored_formattedAt {files : FileTree} {path src out : Bytes}
    (hread : readSource files path = .ok src) (h : canonical src = .ok out) :
    files.FormattedAt [path] (FormatMode.stored ⟨true, false⟩ files path src out) := by
  obtain ⟨location, hl, hsrc⟩ := readSource_eq_ok_iff.mp hread
  by_cases hsame : out = src
  · have hstored : FormatMode.stored ⟨true, false⟩ files path src out = files := by
      simp [stored, hsame]
    rw [hstored]
    exact .single (.refl files) hl hsrc h (by rw [hsrc, hsame]) fun _ _ => rfl
  · have hstored : FormatMode.stored ⟨true, false⟩ files path src out = files.write path out := by
      simp [stored, hsame]
    have hcontent := FileTree.content?_write hl out
    rw [hstored]
    apply FileTree.FormattedAt.single (files.sameNames_write path out) hl hsrc h
    · rw [hcontent, if_pos rfl, hsrc]
      rfl
    · intro l hne
      rw [hcontent, if_neg hne]

namespace Context

variable (c : Context) {mode : FormatMode} {files : FileTree} {path src out : Bytes}

theorem formatFiles_of_problem {rest : List Bytes} {f : Failure}
    (h : sourceProblem files path = some f) :
    c.formatFiles mode files (path :: rest) = .failing files f := by
  rw [sourceProblem] at h
  cases hread : readSource files path with
  | error g =>
    rw [hread] at h
    cases h
    simp only [formatFiles, hread]
  | ok src =>
    rw [hread] at h
    obtain ⟨e, he, rfl⟩ := Option.map_eq_some_iff.mp h
    simp only [formatFiles, hread, canonical_of_error he]

theorem formatFiles_of_canonical (mode : FormatMode) (rest : List Bytes)
    (hread : readSource files path = .ok src) (h : canonical src = .ok out) :
    ∃ log, c.formatFiles mode files (path :: rest) =
      (c.formatFiles mode (mode.stored files path src out) rest).after
        (mode.printed path src out) log := by
  simp only [formatFiles, hread, h]
  exact ⟨_, rfl⟩

/-- Printing and listing leave the files alone. -/
theorem files_formatFiles (h : mode.list ∨ mode.write = false) (files : FileTree)
    (args : List Bytes) : (c.formatFiles mode files args).files = files := by
  induction args with
  | nil => rfl
  | cons path rest ih =>
    cases hproblem : sourceProblem files path with
    | some f => rw [c.formatFiles_of_problem hproblem, Effect.failing]
    | none =>
      obtain ⟨src, out, hread, hout⟩ := sourceProblem_eq_none_iff.mp hproblem
      obtain ⟨log, hstep⟩ := c.formatFiles_of_canonical mode rest hread hout
      have hstored : mode.stored files path src out = files := by
        rcases h with hlist | hwrite <;> simp [FormatMode.stored, *]
      rw [hstep, hstored, Effect.files_after, ih]

/-- Files in canonical form are left alone, and in place or listed there is nothing to print. -/
theorem formatFiles_of_settled (files : FileTree) {args : List Bytes}
    (h : ∀ path ∈ args, ∃ src, readSource files path = .ok src ∧ canonical src = .ok src)
    (hmode : mode.list ∨ mode.write) :
    let e := c.formatFiles mode files args
    e.files = files ∧ e.out = [] ∧ e.failure = none := by
  induction args with
  | nil => exact ⟨rfl, rfl, rfl⟩
  | cons path rest ih =>
    obtain ⟨src, hread, hout⟩ := h path List.mem_cons_self
    obtain ⟨log, hstep⟩ := c.formatFiles_of_canonical mode rest hread hout
    have hstored : mode.stored files path src src = files := by simp [FormatMode.stored]
    have hprinted : mode.printed path src src = [] := by
      rcases hmode with hlist | hwrite <;> simp [FormatMode.printed, *]
    rw [hstored, hprinted] at hstep
    obtain ⟨hfiles, hnothing, hfailure⟩ := ih fun p hp => h p (List.mem_cons_of_mem path hp)
    simp only [hstep, Effect.files_after, Effect.out_after, Effect.failure_after, hfiles, hnothing,
      hfailure, List.append_nil, and_self]

/-- Formatting in place puts the files before the first problem into canonical form, prints nothing
and fails with that problem. -/
theorem formatFiles_in_place (files : FileTree) (args : List Bytes) :
    let e := c.formatFiles ⟨true, false⟩ files args
    files.FormattedAt (args.takeWhile fun path => (sourceProblem files path).isNone) e.files ∧
      e.out = [] ∧ e.failure = args.findSome? (sourceProblem files) := by
  induction args generalizing files with
  | nil => exact ⟨.refl files, rfl, rfl⟩
  | cons path rest ih =>
    rw [List.takeWhile_cons, List.findSome?_cons]
    cases hproblem : sourceProblem files path with
    | some f =>
      rw [c.formatFiles_of_problem hproblem]
      exact ⟨.refl files, rfl, rfl⟩
    | none =>
      obtain ⟨src, out, hread, hout⟩ := sourceProblem_eq_none_iff.mp hproblem
      obtain ⟨log, hstep⟩ := c.formatFiles_of_canonical ⟨true, false⟩ rest hread hout
      have hstored := FormatMode.stored_formattedAt hread hout
      obtain ⟨hrest, hnothing, hfailure⟩ :=
        ih (FormatMode.stored ⟨true, false⟩ files path src out)
      rw [hstored.sourceProblem_eq] at hrest hfailure
      rw [hstep]
      exact ⟨hstored.trans hrest, by rw [Effect.out_after, hnothing]; rfl, hfailure⟩

/-- Running a file in canonical form writes the same and fails alike. -/
theorem runFile_of_canonical {other : FileTree} (hread : readSource files path = .ok src)
    (hother : readSource other path = .ok out) (h : canonical src = .ok out) :
    (c.runFile other path).out = (c.runFile files path).out ∧
      Option.Rel (Failure.SameIn path) (c.runFile files path).failure
        (c.runFile other path).failure := by
  obtain ⟨hscans, hlexemes, -⟩ := settled_of_canonical h
  have hagree := execute_agree (tokenize_error_of_canonical h) hscans hlexemes.symm Sink.writer
    .empty []
  refine ⟨by rw [out_runFile c hread, out_runFile c hother, hagree.sink], ?_⟩
  have herror := hagree.error
  generalize he : (execute Sink.writer src .empty []).error = e at herror
  generalize hd : (execute Sink.writer out .empty []).error = d at herror
  cases herror with
  | none =>
    rw [failure_runFile_eq_none c hread he, failure_runFile_eq_none c hother hd]
    exact .none
  | some hsame =>
    rw [failure_runFile c hread he, failure_runFile c hother hd]
    cases hsame with
    | program place => exact .some ⟨_, _, rfl, rfl, rfl, rfl⟩
    | output reason =>
      obtain ⟨pe, hpe⟩ := exists_program_error writer_reliable (by rw [he]; simp)
      rw [he] at hpe
      cases hpe

end Context

/-- Formatting in place is all or nothing for each file, goes in order and settles. The files that
arguments name before the first one that cannot be read or scanned are left in canonical form, all
others as they were; nothing is printed, and the failure is that of this argument. If there is none,
formatting succeeds, doing it again changes nothing, no file is listed, and running a file that was
named writes the same as before and fails with the same kind and message, if at all. Formatting that
prints or lists, also if it is asked to write too, changes no file. -/
theorem formatting_settles (c : Context) (files : FileTree) (args : List Bytes) :
    let e := c.formatFiles ⟨true, false⟩ files args
    (files.FormattedAt (args.takeWhile fun path => (sourceProblem files path).isNone) e.files ∧
      e.out = [] ∧ e.failure = args.findSome? (sourceProblem files)) ∧
    ((∀ path ∈ args, sourceProblem files path = none) →
      let again := c.formatFiles ⟨true, false⟩ e.files args
      (e.failure = none ∧ files.FormattedAt args e.files) ∧
      (again.files = e.files ∧ again.out = [] ∧ again.failure = none) ∧
      (∀ write, let listed := c.formatFiles ⟨write, true⟩ e.files args
        listed.out = [] ∧ listed.failure = none) ∧
      ∀ path ∈ args, (c.runFile e.files path).out = (c.runFile files path).out ∧
        Option.Rel (Failure.SameIn path) (c.runFile files path).failure
          (c.runFile e.files path).failure) ∧
    ∀ write, (c.formatFiles ⟨false, false⟩ files args).files = files ∧
      (c.formatFiles ⟨write, true⟩ files args).files = files := by
  intro e
  have hplace := c.formatFiles_in_place files args
  refine ⟨hplace, ?_, fun write => ⟨c.files_formatFiles (.inr rfl) files args,
    c.files_formatFiles (.inl rfl) files args⟩⟩
  intro hclean again
  obtain ⟨hformatted, -, hfailure⟩ := hplace
  have hall : (args.takeWhile fun path => (sourceProblem files path).isNone) = args := by
    rw [List.takeWhile_eq_self_iff]
    intro path hpath
    rw [hclean path hpath]
    rfl
  rw [hall] at hformatted
  have hsettled : ∀ path ∈ args, ∃ src, readSource e.files path = .ok src ∧
      canonical src = .ok src := by
    intro path hpath
    obtain ⟨src, out, -, hout, hread⟩ := hformatted.exists_readSource hpath
    exact ⟨out, hread, (settled_of_canonical hout).2.2⟩
  refine ⟨⟨hfailure.trans (List.findSome?_eq_none_iff.mpr hclean), hformatted⟩,
    c.formatFiles_of_settled e.files hsettled (.inr rfl), ?_, ?_⟩
  · intro write
    exact (c.formatFiles_of_settled e.files hsettled (.inl rfl)).2
  · intro path hpath
    obtain ⟨src, out, hread, hout, hother⟩ := hformatted.exists_readSource hpath
    exact c.runFile_of_canonical hread hother hout

/-- One file is named twice, once by another path; one of the others does not scan. -/
theorem formatting_settles_renamed :
    let files : FileTree := ⟨[], [], [([utf8 "a"], utf8 "var x;;print\ny"),
      ([utf8 "b"], utf8 "print 1 ;"), ([utf8 "c"], utf8 "var ?")]⟩
    let clean := [utf8 "a", utf8 "./a", utf8 "b"]
    let halted := [utf8 "a", utf8 "./a", utf8 "c", utf8 "b"]
    let format := fun mode tree args => Context.standalone.formatFiles mode tree args
    let done := (format ⟨true, false⟩ files clean).files
    let stopped := format ⟨true, false⟩ files halted
    let run := fun tree => (Context.standalone.runFile tree (utf8 "a")).failure
    (stopped.failure = some (.inSource (utf8 "c") (.scan ⟨⟨1, 5, 4⟩, utf8 "?"⟩)) ∧
      stopped.files.content? [utf8 "a"] = some (utf8 "var x;\n;\nprint y\n") ∧
      stopped.files.content? [utf8 "b"] = some (utf8 "print 1 ;")) ∧
    (∀ path ∈ clean, sourceProblem files path = none) ∧
    done.content? [utf8 "b"] = some (utf8 "print 1;\n") ∧
    (format ⟨true, false⟩ done clean).files = done ∧ (format ⟨true, true⟩ done clean).out = [] ∧
    run files ≠ none ∧ Option.Rel (Failure.SameIn (utf8 "a")) (run files) (run done) ∧
    (format ⟨true, true⟩ files clean).files = files := by
  intro files clean halted format done stopped run
  have hclean : ∀ path ∈ clean, sourceProblem files path = none := by decide +kernel
  obtain ⟨⟨hstopped, -, hfailure⟩, -, -⟩ := formatting_settles .standalone files halted
  obtain ⟨-, hsettles, hlisting⟩ := formatting_settles .standalone files clean
  obtain ⟨-, ⟨hagain, -, -⟩, hlisted, hruns⟩ := hsettles hclean
  have hkept := hstopped.kept [utf8 "b"] (by decide +kernel)
  refine ⟨⟨hfailure.trans (by decide +kernel), by decide +kernel, hkept.trans (by decide +kernel)⟩,
    hclean, by decide +kernel, hagain, (hlisted true).1, by decide +kernel, ?_, (hlisting true).2⟩
  exact (hruns (utf8 "a") List.mem_cons_self).2

end StatementLang
