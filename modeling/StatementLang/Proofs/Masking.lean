import Mathlib.Data.List.Nodup
import StatementLang.Proofs.Configuration

/-!
# Upper layers mask lower ones

Settings are made from the values that count for their keys and from nothing else, and the value of
a key comes from the topmost layer that has one. So it does not matter what the layers below have
for that key, be it of another kind, refused by itself or not there. A flag counts only if it was
set: the layer of a set of flags is the same whatever their defaults are.
-/

namespace StatementLang

namespace Layer

variable {l l' : Layer} {key : Bytes} {v : Yaml.Value}

/-- The layer has a value for the key. -/
def Sets (l : Layer) (key : Bytes) : Prop := key ∈ l.map Prod.fst

/-- The layers have the same values, except perhaps for one key. -/
def SameBut (key : Bytes) (l l' : Layer) : Prop :=
  ∀ other, other ≠ key → l'.value? other = l.value? other

theorem mem_of_value? (h : l.value? key = some v) : (key, v) ∈ l := by
  obtain ⟨before, behind, hsplit, -⟩ := List.lookup_eq_some_iff.mp h
  exact List.mem_reverse.mp (hsplit ▸ List.mem_append_right before List.mem_cons_self)

theorem sets_iff : l.Sets key ↔ ∃ v, l.value? key = some v := by
  constructor
  · intro h
    obtain ⟨e, he, rfl⟩ := List.mem_map.mp h
    have hmem : e ∈ l.reverse := List.mem_reverse.mpr he
    exact Option.isSome_iff_exists.mp (List.lookup_isSome_iff.mpr ⟨e, hmem, beq_self_eq_true e.1⟩)
  · rintro ⟨v, hv⟩
    exact List.mem_map.mpr ⟨_, mem_of_value? hv, rfl⟩

@[simp] theorem value?_eq_none_iff : l.value? key = none ↔ ¬ l.Sets key := by
  rw [sets_iff, Option.eq_none_iff_forall_ne_some, not_exists]

/-- A layer that has one value for a key gives this value. -/
theorem value?_of_unique (h : (key, v) ∈ l) (hunique : ∀ w, (key, w) ∈ l → w = v) :
    l.value? key = some v := by
  obtain ⟨w, hw⟩ := sets_iff.mp (List.mem_map.mpr ⟨_, h, rfl⟩)
  rw [hw, hunique w (mem_of_value? hw)]

@[simp] theorem value?_append (l more : Layer) (key : Bytes) :
    (l ++ more).value? key = (more.value? key).or (l.value? key) := by
  rw [value?, List.reverse_append, List.lookup_append]
  rfl

/-- More values for one key do not change what there is for others. -/
theorem sameBut_append (l : Layer) {more : Layer} (h : ∀ e ∈ more, e.1 = key) :
    SameBut key l (l ++ more) := by
  intro other hne
  have hnone : more.value? other = none := by
    apply value?_eq_none_iff.mpr
    intro hset
    obtain ⟨e, he, rfl⟩ := List.mem_map.mp hset
    exact hne (h e he)
  rw [value?_append, hnone, Option.none_or]

end Layer

namespace Layers

variable {file file' environment environment' flags flags' : Layer} {key : Bytes}

/-- Only the values that count for their keys go into the settings. -/
theorem settings_congr {l l' : Layers} (h : ∀ key, l'.value? key = l.value? key) :
    Config.settings l' = Config.settings l := by
  have hdecode : l'.decode = l.decode := by simp only [decode, setting, h]
  rw [Config.settings, Config.settings, hdecode]

/-- What the flags set is not looked for below. -/
theorem settings_of_flags (hset : flags.Sets key)
    (henvironment : Layer.SameBut key environment environment') (hfile : Layer.SameBut key file file') :
    Config.settings ⟨file', environment', flags⟩ = Config.settings ⟨file, environment, flags⟩ := by
  apply settings_congr
  intro other
  by_cases hother : other = key
  · subst hother
    obtain ⟨v, hv⟩ := Layer.sets_iff.mp hset
    simp only [value?, hv, Option.some_or]
  · simp only [value?, henvironment other hother, hfile other hother]

/-- What the environment sets is not looked for in the file. -/
theorem settings_of_environment (hset : environment.Sets key)
    (hfile : Layer.SameBut key file file') :
    Config.settings ⟨file', environment, flags⟩ = Config.settings ⟨file, environment, flags⟩ := by
  apply settings_congr
  intro other
  by_cases hother : other = key
  · subst hother
    obtain ⟨v, hv⟩ := Layer.sets_iff.mp hset
    simp only [value?, hv, Option.some_or]
  · simp only [value?, hfile other hother]

end Layers

theorem Config.load_eq {files : FileTree} {environment : List (Bytes × Bytes)} {asked : Bytes}
    {o : Options} {file : Layer}
    (h : Config.fileLayer files (Config.findFile files asked) = .ok file) :
    Config.load files environment asked o =
      Config.settings ⟨file, .ofEnvironment environment, .ofOptions o⟩ := by
  rw [Config.load, h]

/-- A flag of a set once a command line has been read: its value is the one that it was set to last,
or its default. -/
structure FlagState where
  name : Bytes
  value : FlagValue
  changed : Bool
  deriving DecidableEq, Repr

/-- The states of the flags of a set, in the order of the set. -/
def Options.states (o : Options) (flags : List Flag) (default : Flag → FlagValue) :
    List FlagState :=
  flags.map fun f => ⟨f.name, (o.value? f.name).getD (default f), o.isSet f.name⟩

/-- The layer of the flags of a set: all that were changed. -/
def Layer.ofStates (states : List FlagState) : Layer :=
  (states.filter FlagState.changed).map fun s => (flagKey s.name, ofFlagValue s.value)

namespace FlagStep

/-- The settings that reading an argument has made. -/
def made : FlagStep → List (Bytes × FlagValue)
  | .done settings => settings
  | .wants settings _ _ => settings
  | .refused settings _ => settings

/-- Only flags of the set are set or wait for a value. -/
structure Known (flags : List Flag) (s : FlagStep) : Prop where
  made : ∀ x ∈ s.made, ∃ f ∈ flags, f.name = x.1
  wants : ∀ settings f e, s = .wants settings f e → f ∈ flags

end FlagStep

namespace Flag

open FlagStep (Known)

variable {flags : List Flag} {f : Flag}

theorem assign_name {value : Bytes} {x : Bytes × FlagValue} (h : f.assign value = .ok x) :
    x.1 = f.name := by
  rw [assign] at h
  split at h
  · rw [← Except.ok.inj h]
  · cases h

theorem known_assignOnly (hf : f ∈ flags) (value : Bytes) : Known flags (f.assignOnly value) := by
  rw [assignOnly]
  cases hx : f.assign value with
  | error e => exact ⟨nofun, nofun⟩
  | ok x =>
    refine ⟨fun y hy => ?_, nofun⟩
    obtain rfl := List.mem_singleton.mp hy
    exact ⟨f, hf, (assign_name hx).symm⟩

theorem known_long (flags : List Flag) (body : Bytes) : Known flags (long flags body) := by
  rw [long]
  split
  · exact ⟨nofun, nofun⟩
  · dsimp only
    cases hfind : find? flags (splitBefore (· == 61) body).1 with
    | none => exact ⟨nofun, nofun⟩
    | some f =>
      have hmem : f ∈ flags := List.mem_of_find?_eq_some hfind
      have hname : f.name = (splitBefore (· == 61) body).1 := by
        simpa using List.find?_some hfind
      cases (splitBefore (· == 61) body).2 with
      | cons b value => exact known_assignOnly hmem value
      | nil =>
        dsimp only
        split
        · refine ⟨fun x hx => ?_, nofun⟩
          obtain rfl := List.mem_singleton.mp hx
          exact ⟨f, hmem, hname⟩
        · refine ⟨nofun, ?_⟩
          rintro settings g e ⟨⟩
          exact hmem

theorem known_after {s : FlagStep} (h : Known flags s) (hf : f ∈ flags) (v : FlagValue) :
    Known flags (s.after (f.name, v)) := by
  have hmade : ∀ x ∈ (f.name, v) :: s.made, ∃ f ∈ flags, f.name = x.1 := by
    intro x hx
    rcases List.mem_cons.mp hx with rfl | hx
    · exact ⟨f, hf, rfl⟩
    · exact h.made x hx
  cases s with
  | done rest => exact ⟨hmade, nofun⟩
  | refused rest e => exact ⟨hmade, nofun⟩
  | wants rest g e =>
    refine ⟨hmade, ?_⟩
    rintro settings g e ⟨⟩
    exact h.wants _ _ _ rfl

theorem known_short (flags : List Flag) (letters : Bytes) : Known flags (short flags letters) := by
  induction letters with
  | nil => exact ⟨nofun, nofun⟩
  | cons l rest ih =>
    rw [short]
    split
    · exact ⟨nofun, nofun⟩
    · cases hfind : findLetter? flags l with
      | none => exact ⟨nofun, nofun⟩
      | some f =>
        have hmem : f ∈ flags := List.mem_of_find?_eq_some hfind
        dsimp only
        split
        · exact known_assignOnly hmem _
        · split
          · exact known_after ih hmem _
          · split
            · refine ⟨nofun, ?_⟩
              rintro settings g e ⟨⟩
              exact hmem
            · exact known_assignOnly hmem _

theorem known_step (flags : List Flag) (argument : Bytes) : Known flags (step flags argument) := by
  unfold step
  split
  · exact known_long flags _
  · exact known_short flags _
  · exact ⟨nofun, nofun⟩

end Flag

namespace Options

/-- All flags that were set are flags of the set. -/
def Among (flags : List Flag) (o : Options) : Prop := ∀ s ∈ o.settings, ∃ f ∈ flags, f.name = s.1

theorem Among.append {flags : List Flag} {o : Options} (h : o.Among flags)
    {settings : List (Bytes × FlagValue)} (hs : ∀ s ∈ settings, ∃ f ∈ flags, f.name = s.1) :
    Among flags { o with settings := o.settings ++ settings } := by
  intro s hmem
  rcases List.mem_append.mp hmem with hmem | hmem
  · exact h s hmem
  · exact hs s hmem

theorem Among.parseFrom {flags : List Flag} (arguments : List Bytes) {o : Options}
    (h : o.Among flags) : (parseFrom flags arguments o).1.Among flags := by
  fun_induction Options.parseFrom flags arguments o with
  | case1 o => exact h
  | case2 a rest o _ ih => exact ih h
  | case3 rest o _ => exact h
  | case4 a rest o _ _ s hs ih =>
    have hknown : FlagStep.Known flags (.done s) := hs ▸ Flag.known_step flags a
    exact ih (h.append hknown.made)
  | case5 a rest o _ _ s e hs =>
    have hknown : FlagStep.Known flags (.refused s e) := hs ▸ Flag.known_step flags a
    exact h.append hknown.made
  | case6 a o _ _ s f e hs =>
    have hknown : FlagStep.Known flags (.wants s f e) := hs ▸ Flag.known_step flags a
    exact h.append hknown.made
  | case7 a o _ _ s f e hs o' value rest x hx ih =>
    have hknown : FlagStep.Known flags (.wants s f e) := hs ▸ Flag.known_step flags a
    refine ih ((h.append hknown.made).append fun y hy => ?_)
    obtain rfl := List.mem_singleton.mp hy
    exact ⟨f, hknown.wants _ _ _ rfl, (Flag.assign_name hx).symm⟩
  | case8 a o _ _ s f e hs =>
    have hknown : FlagStep.Known flags (.wants s f e) := hs ▸ Flag.known_step flags a
    exact h.append hknown.made

theorem among_of_parse {flags : List Flag} {arguments : List Bytes} {o : Options}
    {error : Option FlagError} (h : parse flags arguments = (o, error)) : o.Among flags := by
  have hempty : Options.empty.Among flags := nofun
  have hparsed := hempty.parseFrom arguments
  rw [parse] at h
  rwa [h] at hparsed

variable {o : Options} {name : Bytes}

theorem isSet_iff : o.isSet name ↔ ∃ v, (name, v) ∈ o.settings := by
  rw [isSet, value?, List.lookup_isSome_iff]
  constructor
  · rintro ⟨⟨n, v⟩, hmem, hn⟩
    obtain rfl : name = n := by simpa using hn
    exact ⟨v, List.mem_reverse.mp hmem⟩
  · rintro ⟨v, hmem⟩
    exact ⟨(name, v), List.mem_reverse.mpr hmem, beq_self_eq_true name⟩

end Options

namespace Layer

variable {flags : List Flag} {default : Flag → FlagValue} {o : Options}

/-- A key that one flag alone has is set to what this flag was set to last. -/
theorem value?_ofOptions {name : Bytes}
    (h : ∀ s ∈ o.settings, flagKey s.1 = flagKey name → s.1 = name) :
    (ofOptions o).value? (flagKey name) = (o.value? name).map ofFlagValue := by
  have h' : ∀ s ∈ o.settings.reverse, flagKey s.1 = flagKey name → s.1 = name :=
    fun s hs => h s (List.mem_reverse.mp hs)
  rw [value?, ofOptions, ← List.map_reverse, Options.value?]
  generalize o.settings.reverse = settings at h' ⊢
  induction settings with
  | nil => rfl
  | cons s rest ih =>
    have hrest := ih fun x hx => h' x (List.mem_cons_of_mem s hx)
    rw [List.map_cons, List.lookup_cons, List.lookup_cons, hrest]
    by_cases hs : name = s.1
    · simp [hs]
    · have hkey : flagKey name ≠ flagKey s.1 := fun he =>
        hs (h' s List.mem_cons_self he.symm).symm
      rw [beq_false_of_ne hs, beq_false_of_ne hkey]

/-- The key of a flag of a set has the value that the flag was set to last. -/
theorem value?_ofOptions_of_mem (hflags : (flags.map fun f => flagKey f.name).Nodup)
    (ho : o.Among flags) {f : Flag} (hf : f ∈ flags) :
    (ofOptions o).value? (flagKey f.name) = (o.value? f.name).map ofFlagValue := by
  apply value?_ofOptions
  intro s hs he
  obtain ⟨g, hg, hname⟩ := ho s hs
  rw [← hname] at he ⊢
  rw [List.inj_on_of_nodup_map hflags hg hf he]

theorem value?_ofOptions_eq_none {key : Bytes} (h : ∀ s ∈ o.settings, flagKey s.1 ≠ key) :
    (ofOptions o).value? key = none := by
  rw [value?_eq_none_iff, Sets, ofOptions, List.map_map]
  intro hset
  obtain ⟨s, hs, he⟩ := List.mem_map.mp hset
  exact h s hs he

/-- The flags that supply settings, and the keys of these. -/
def settingFlags : List (Bytes × Bytes) :=
  [("verbose", "verbose"), ("log-level", "log_level"), ("output", "output"), ("color", "color"),
    ("debounce", "watch_debounce"), ("history", "history_file"), ("jobs", "check_jobs")].map
    fun p => (utf8 p.1, utf8 p.2)

theorem flagKey_of_mem_settingFlags {name key : Bytes} (h : (name, key) ∈ settingFlags) :
    flagKey name = key := by
  have hall : ∀ p ∈ settingFlags, flagKey p.1 = p.2 := by decide +kernel
  exact hall _ h

theorem sets_ofOptions {name key : Bytes} (h : (name, key) ∈ settingFlags) (hset : o.isSet name) :
    (ofOptions o).Sets key := by
  obtain ⟨v, hv⟩ := Options.isSet_iff.mp hset
  rw [← flagKey_of_mem_settingFlags h]
  exact List.mem_map.mpr ⟨_, List.mem_map_of_mem hv, rfl⟩

theorem mem_ofStates {key : Bytes} {v : Yaml.Value} :
    (key, v) ∈ ofStates (o.states flags default) ↔
      ∃ f ∈ flags, ∃ w, o.value? f.name = some w ∧ key = flagKey f.name ∧ v = ofFlagValue w := by
  simp only [ofStates, Options.states, List.mem_map, List.mem_filter]
  constructor
  · rintro ⟨s, ⟨⟨f, hf, rfl⟩, hset⟩, he⟩
    obtain ⟨w, hw⟩ := Option.isSome_iff_exists.mp hset
    simp only [hw, Option.getD_some, Prod.mk.injEq] at he
    exact ⟨f, hf, w, hw, he.1.symm, he.2.symm⟩
  · rintro ⟨f, hf, w, hw, rfl, rfl⟩
    exact ⟨_, ⟨⟨f, hf, rfl⟩, by simp [Options.isSet, hw]⟩, by simp [hw]⟩

/-- The flags of a set say what was set on the command line and nothing else. -/
theorem value?_ofStates (hflags : (flags.map fun f => flagKey f.name).Nodup) (ho : o.Among flags)
    (key : Bytes) : (ofStates (o.states flags default)).value? key = (ofOptions o).value? key := by
  have hsame : ∀ f ∈ flags, ∀ g ∈ flags, flagKey f.name = flagKey g.name → f = g :=
    fun f hf g hg he => List.inj_on_of_nodup_map hflags hf hg he
  by_cases hkey : ∃ s ∈ o.settings, flagKey s.1 = key
  · obtain ⟨⟨name, v⟩, hs, rfl⟩ := hkey
    obtain ⟨f, hf, rfl⟩ := ho _ hs
    obtain ⟨w, hw⟩ := Option.isSome_iff_exists.mp (Options.isSet_iff.mpr ⟨v, hs⟩)
    rw [value?_ofOptions_of_mem hflags ho hf, hw]
    refine value?_of_unique (mem_ofStates.mpr ⟨f, hf, w, hw, rfl, rfl⟩) fun x hx => ?_
    obtain ⟨g, hg, w', hw', he, rfl⟩ := mem_ofStates.mp hx
    obtain rfl := hsame f hf g hg he
    rw [Option.some.inj (hw.symm.trans hw')]
  · have hunset : (ofOptions o).value? key = none :=
      value?_ofOptions_eq_none fun s hs he => hkey ⟨s, hs, he⟩
    have hunchanged : ¬ (ofStates (o.states flags default)).Sets key := by
      intro h
      obtain ⟨v, hv⟩ := sets_iff.mp h
      obtain ⟨f, -, w, hw, rfl, -⟩ := mem_ofStates.mp (mem_of_value? hv)
      obtain ⟨w, hmem⟩ := Options.isSet_iff.mp (Option.isSome_iff_exists.mpr ⟨w, hw⟩)
      exact hkey ⟨_, hmem, rfl⟩
    rw [hunset, value?_eq_none_iff.mpr hunchanged]

end Layer

/-- A key that a flag sets, such as that of a changed flag of a setting, is not affected by what the
environment and the file have for it, and a key that the environment sets not by what the file has
for it: whether the settings are accepted or refused, the result is the same. A flag that was not
changed on the command line does not affect the result, whatever its default. -/
theorem upper_layers_mask (o : Options) (environment : List (Bytes × Bytes)) (files : FileTree)
    (asked : Bytes) (file : Layer)
    (hfile : Config.fileLayer files (Config.findFile files asked) = .ok file) :
    (∀ key, ((Layer.ofOptions o).Sets key ∨
        ∃ name, (name, key) ∈ Layer.settingFlags ∧ o.isSet name) →
      ∀ (environment' : List (Bytes × Bytes)) (files' : FileTree) (asked' : Bytes) (file' : Layer),
        Config.fileLayer files' (Config.findFile files' asked') = .ok file' →
        Layer.SameBut key (.ofEnvironment environment) (.ofEnvironment environment') →
        Layer.SameBut key file file' →
        Config.load files' environment' asked' o = Config.load files environment asked o) ∧
    (∀ key, (Layer.ofEnvironment environment).Sets key →
      ∀ (files' : FileTree) (asked' : Bytes) (file' : Layer),
        Config.fileLayer files' (Config.findFile files' asked') = .ok file' →
        Layer.SameBut key file file' →
        Config.load files' environment asked' o = Config.load files environment asked o) ∧
    ∀ (flags : List Flag) (default : Flag → FlagValue) (arguments : List Bytes),
      (flags.map fun f => Layer.flagKey f.name).Nodup → Options.parse flags arguments = (o, none) →
      Config.settings
          ⟨file, .ofEnvironment environment, .ofStates (o.states flags default)⟩ =
        Config.load files environment asked o := by
  rw [Config.load_eq hfile]
  refine ⟨?_, ?_, ?_⟩
  · intro key hchanged environment' files' asked' file' hfile' henvironment hsame
    have hset : (Layer.ofOptions o).Sets key := by
      rcases hchanged with hset | ⟨name, hname, hset⟩
      · exact hset
      · exact Layer.sets_ofOptions hname hset
    rw [Config.load_eq hfile']
    exact Layers.settings_of_flags hset henvironment hsame
  · intro key hset files' asked' file' hfile' hsame
    rw [Config.load_eq hfile']
    exact Layers.settings_of_environment hset hsame
  · intro flags default arguments hflags hparse
    apply Layers.settings_congr
    intro key
    simp only [Layers.value?, Layer.value?_ofStates hflags (Options.among_of_parse hparse)]

/-- No two flags of a command set one key. -/
theorem Command.nodup_flagKeys (c : Command) :
    ((c.flags ++ Flag.globals).map fun f => Layer.flagKey f.name).Nodup := by
  cases c <;> decide +kernel

/-- A number and an unknown name for the format are masked by a flag, and a text that is no number is
masked by the number of jobs in the environment. -/
theorem upper_layers_mask_unfit :
    let flags := Command.check.flags ++ Flag.globals
    let o := (Options.parse flags [utf8 "-o", utf8 "json", utf8 "a.xp"]).1
    let bare : FileTree := ⟨[], [], []⟩
    let number : FileTree := ⟨[], [], [([utf8 "xpres.yaml"], utf8 "output: 5\n")]⟩
    let word : FileTree := ⟨[], [], [([utf8 "xpres.yaml"], utf8 "check_jobs: few\n")]⟩
    let environment := [(utf8 "XPRES_CHECK_JOBS", utf8 "2")]
    let unknown := environment ++ [(utf8 "XPRES_OUTPUT", utf8 "xml")]
    let s : Settings := { Settings.default with output := utf8 "json", checkJobs := 2 }
    let states := o.states flags fun _ => .number 7
    Config.load bare environment [] o = .ok s ∧ Config.load number unknown [] o = .ok s ∧
    Config.load word environment [] o = .ok s ∧
    Config.settings ⟨[], .ofEnvironment environment, .ofStates states⟩ = .ok s := by
  intro flags o bare number word environment unknown s states
  have hload : Config.load bare environment [] o = .ok s := eq_ok_of_toOption (by decide +kernel)
  have hbare : Config.fileLayer bare (Config.findFile bare []) = .ok [] := by
    rw [show Config.findFile bare [] = [] by decide +kernel]
    rfl
  have hfile : ∀ (files : FileTree) (key : Bytes),
      (Config.fileLayer files (Config.findFile files [])).toOption.map (·.map Prod.fst) =
        some [key] →
      ∃ file, Config.fileLayer files (Config.findFile files []) = .ok file ∧
        Layer.SameBut key [] file := by
    intro files key h
    obtain ⟨file, hok, hkeys⟩ := Option.map_eq_some_iff.mp h
    refine ⟨file, eq_ok_of_toOption hok, Layer.sameBut_append [] fun e he => ?_⟩
    have hmem : e.1 ∈ file.map Prod.fst := List.mem_map_of_mem he
    rw [hkeys] at hmem
    exact List.mem_singleton.mp hmem
  obtain ⟨five, hfive, hfive'⟩ := hfile number (utf8 "output") (by decide +kernel)
  obtain ⟨few, hfew, hfew'⟩ := hfile word (utf8 "check_jobs") (by decide +kernel)
  have hunknown : Layer.SameBut (utf8 "output") (.ofEnvironment environment)
      (.ofEnvironment unknown) := by
    rw [show Layer.ofEnvironment unknown = Layer.ofEnvironment environment ++
      Layer.ofEnvironment [(utf8 "XPRES_OUTPUT", utf8 "xml")] from List.flatMap_append]
    exact Layer.sameBut_append _ (by decide +kernel)
  have hjobs : utf8 "check_jobs" ∈ (Layer.ofEnvironment environment).map Prod.fst := by
    decide +kernel
  have houtput : (utf8 "output", utf8 "output") ∈ Layer.settingFlags ∧ o.isSet (utf8 "output") :=
    ⟨by decide +kernel, by decide +kernel⟩
  obtain ⟨hflag, hvariable, hstates⟩ := upper_layers_mask o environment bare [] [] hbare
  refine ⟨hload, ?_, ?_, ?_⟩
  · rw [hflag _ (.inr ⟨_, houtput⟩) unknown number [] five hfive hunknown hfive', hload]
  · rw [hvariable _ hjobs word [] few hfew hfew', hload]
  · rw [hstates flags (fun _ => .number 7) [utf8 "-o", utf8 "json", utf8 "a.xp"]
      (Command.nodup_flagKeys .check) (Prod.ext rfl (by decide +kernel)), hload]

end StatementLang
