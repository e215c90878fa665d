import Mathlib.Data.List.TakeDrop
import StatementLang.Proofs.Masking

/-!
# How a setting is supplied

Four settings have a flag of every command and a variable of the environment. Either way the value
ends up under one key, and what a command does follows from its settings, its arguments and its
other flags. So the command does the same whichever of the two supplies the value. The report of its
failure is made outside of it, where only the flag for the colour counts: a variable that asks for
colour leaves this one report plain.
-/

namespace StatementLang

/-- The settings that every command has a flag for. -/
inductive SharedSetting where
  | verbose
  | logLevel
  | output
  | color
  deriving DecidableEq, Repr

namespace SharedSetting

def flag : SharedSetting → Flag
  | .verbose => .verbose
  | .logLevel => .logLevel
  | .output => .output
  | .color => .color

def variableName : SharedSetting → Bytes
  | .verbose => utf8 "XPRES_VERBOSE"
  | .logLevel => utf8 "XPRES_LOG_LEVEL"
  | .output => utf8 "XPRES_OUTPUT"
  | .color => utf8 "XPRES_COLOR"

def key : SharedSetting → Bytes
  | .verbose => utf8 "verbose"
  | .logLevel => utf8 "log_level"
  | .output => utf8 "output"
  | .color => utf8 "color"

/-- The flag with its value as one argument. -/
def word (s : SharedSetting) (value : Bytes) : Bytes := [45, 45] ++ s.flag.name ++ 61 :: value

/-- The text of the variable stands for the value of the flag. -/
def Denotes (s : SharedSetting) (t : Bytes) (v : FlagValue) : Prop :=
  match s with
  | .verbose => ∃ on, v = .switch on ∧ Yaml.Value.toBool (.scalar (.text t)) = .ok on
  | _ => v = .text t

@[simp] theorem flagKey_flag (s : SharedSetting) : Layer.flagKey s.flag.name = s.key := by
  cases s <;> with_unfolding_all decide

@[simp] theorem ofVariable_eq (s : SharedSetting) (t : Bytes) :
    Layer.ofVariable s.variableName t = [(s.key, .scalar (.text t))] := by
  have hmark : Layer.environmentMark.isPrefixOf s.variableName = true := by
    cases s <;> with_unfolding_all decide
  have hkey : toLower (s.variableName.drop Layer.environmentMark.length) = s.key := by
    cases s <;> with_unfolding_all decide
  have hempty : s.key.isEmpty = false := by cases s <;> with_unfolding_all decide
  have hdot : splitBefore (· == 46) s.key = (s.key, []) := by cases s <;> with_unfolding_all decide
  simp [Layer.ofVariable, hmark, hkey, hempty, hdot]

theorem flag_mem (s : SharedSetting) (c : Command) : s.flag ∈ c.flags ++ Flag.globals := by
  apply List.mem_append_right
  cases s <;> decide +kernel

end SharedSetting

/-- No two flags of a set have one name if no two have one key. -/
theorem Flag.find?_of_mem {flags : List Flag} {f : Flag}
    (hflags : (flags.map fun f => Layer.flagKey f.name).Nodup) (hf : f ∈ flags) :
    Flag.find? flags f.name = some f := by
  have hfound : (Flag.find? flags f.name).isSome :=
    List.find?_isSome.mpr ⟨f, hf, beq_self_eq_true f.name⟩
  obtain ⟨g, hg⟩ := Option.isSome_iff_exists.mp hfound
  have hname : g.name = f.name := by simpa using List.find?_some hg
  have hmem : g ∈ flags := List.mem_of_find?_eq_some hg
  rw [hg, List.inj_on_of_nodup_map hflags hmem hf (congrArg Layer.flagKey hname)]

/-- The second options have the same arguments and flags, and one flag more. -/
structure Options.Gains (o : Options) (name : Bytes) (v : FlagValue) (o' : Options) : Prop where
  arguments : o'.arguments = o.arguments
  unset : o.value? name = none
  given : o'.value? name = some v
  others : ∀ other, other ≠ name → o'.value? other = o.value? other

namespace CommandLine

/-- The command line is read as a command with options. A request for completions has none. -/
def Asks (arguments : List Bytes) (c : Command) (o : Options) : Prop :=
  c ≠ .complete ∧ ∃ calledAs rest, Command.find arguments = .command c calledAs rest ∧
    Options.parse (c.flags ++ Flag.globals) rest = (o, none)

/-- The second command line asks for the same as the first, and sets the flag of a setting too. -/
def Adds (s : SharedSetting) (v : FlagValue) (plain flagged : List Bytes) : Prop :=
  ∃ c o o', Asks plain c o ∧ Asks flagged c o' ∧ o.Gains s.flag.name v o'

end CommandLine

section Front

variable {s : SharedSetting} {value : Bytes} {v : FlagValue}

theorem SharedSetting.word_ne_dashes : s.word value ≠ utf8 "--" := by
  have hdashes : utf8 "--" = [45, 45] := by with_unfolding_all decide
  rw [hdashes, word]
  simp

@[simp] theorem SharedSetting.takesNext_word : Command.takesNext (s.word value) = false := by
  have hequals : (s.word value).contains 61 = true := by simp [word]
  rw [Command.takesNext.eq_def, hequals, Bool.not_true, Bool.false_and]

/-- A word that may name a command is no flag. -/
theorem Command.startsWithDash_of_mem_words {word : Bytes} {arguments : List Bytes}
    (h : word ∈ Command.words arguments) : Command.startsWithDash word = false := by
  fun_induction Command.words arguments with
  | case1 => cases h
  | case2 => cases h
  | case3 => cases h
  | case4 => cases h
  | case5 a _ _ value more _ ih => exact ih h
  | case6 a rest _ _ _ ih => exact ih h
  | case7 a rest _ _ hplain ih =>
    rcases List.mem_cons.mp h with rfl | h
    · simpa using (not_or.mp hplain).2
    · exact ih h

theorem Command.find_eq_iff {arguments rest : List Bytes} {word : Bytes} {c : Command} :
    Command.find arguments = .command c word rest ↔
      (Command.words arguments).head? = some word ∧ Command.ofName? word = some c ∧
        Command.without word arguments = rest := by
  rw [Command.find]
  cases Command.words arguments with
  | nil => simp
  | cons first more =>
    cases hname : Command.ofName? first with
    | none => grind
    | some found => grind

/-- A flag in front does not hide the command behind it. -/
theorem Command.find_word {plain rest : List Bytes} {c : Command} {calledAs : Bytes}
    (h : Command.find plain = .command c calledAs rest) :
    Command.find (s.word value :: plain) = .command c calledAs (s.word value :: rest) := by
  obtain ⟨hfirst, hname, hrest⟩ := Command.find_eq_iff.mp h
  have hdash : Command.startsWithDash (s.word value) = true := rfl
  have hwords : Command.words (s.word value :: plain) = Command.words plain := by
    rw [Command.words.eq_def]
    simp [SharedSetting.word_ne_dashes, hdash]
  -- the flag is not what names the command, so it stays among the arguments
  have hne : s.word value ≠ calledAs := by
    rintro rfl
    have hmem := List.mem_of_mem_head? hfirst
    rw [Command.startsWithDash_of_mem_words hmem] at hdash
    cases hdash
  have hwithout : Command.without calledAs (s.word value :: plain) =
      s.word value :: Command.without calledAs plain := by
    rw [Command.without.eq_def]
    simp [SharedSetting.word_ne_dashes, hne]
  apply Command.find_eq_iff.mpr
  rw [hwords, hwithout, hrest]
  exact ⟨hfirst, hname, rfl⟩

/-- Settings made before the rest of a command line is read stay in front. -/
theorem Options.parseFrom_front (flags : List Flag) (arguments : List Bytes)
    (front : List (Bytes × FlagValue)) (o : Options) :
    Options.parseFrom flags arguments ⟨front ++ o.settings, o.arguments⟩ =
      (⟨front ++ (Options.parseFrom flags arguments o).1.settings,
        (Options.parseFrom flags arguments o).1.arguments⟩,
        (Options.parseFrom flags arguments o).2) := by
  fun_induction Options.parseFrom flags arguments o with
  | case1 o => rfl
  | case2 a rest o hplain ih => rw [parseFrom, if_pos hplain, ih]
  | case3 rest o hplain => rw [parseFrom, if_neg hplain, if_pos rfl]
  | case4 a rest o hplain hdashes s hs ih =>
    rw [parseFrom, if_neg hplain, if_neg hdashes, hs, ← ih]
    simp only [List.append_assoc]
  | case5 a rest o hplain hdashes s e hs =>
    rw [parseFrom, if_neg hplain, if_neg hdashes, hs]
    simp only [List.append_assoc]
  | case6 a o hplain hdashes s f e hs o' =>
    rw [parseFrom, if_neg hplain, if_neg hdashes, hs]
    simp only [List.append_assoc, o']
  | case7 a o hplain hdashes s f e hs o' value rest x hx ih =>
    rw [parseFrom, if_neg hplain, if_neg hdashes, hs, ← ih]
    simp only [hx, List.append_assoc, o']
  | case8 a o hplain hdashes s f e hs o' value rest e' hx =>
    rw [parseFrom, if_neg hplain, if_neg hdashes, hs]
    simp only [hx, List.append_assoc, o']

/-- The argument is read as the flag with its value. -/
theorem SharedSetting.step_word (c : Command) (h : Flag.readValue s.flag.kind value = .ok v) :
    Flag.step (c.flags ++ Flag.globals) (s.word value) = .done [(s.flag.name, v)] := by
  have hbytes : ∀ b ∈ s.flag.name, (!(b == 61)) = true := by cases s <;> decide +kernel
  have hsplit : splitBefore (· == 61) (s.flag.name ++ 61 :: value) =
      (s.flag.name, 61 :: value) := by
    rw [splitBefore, List.span_eq_takeWhile_dropWhile, List.takeWhile_append_of_pos hbytes,
      List.dropWhile_append_of_pos hbytes]
    simp
  have hfirst : s.flag.name.head?.isSome ∧
      ¬ (s.flag.name.head? = some 45 ∨ s.flag.name.head? = some 61) := by
    cases s <;> decide +kernel
  have hhead : (s.flag.name ++ 61 :: value).head? = s.flag.name.head? := by
    rw [List.head?_append, Option.or_of_isSome hfirst.1]
  change Flag.long _ (s.flag.name ++ 61 :: value) = _
  rw [Flag.long, hhead, if_neg hfirst.2, hsplit]
  have hfind := Flag.find?_of_mem (Command.nodup_flagKeys c) (s.flag_mem c)
  simp only [hfind, Flag.assignOnly, Flag.assign, h]

theorem CommandLine.asks_word {plain : List Bytes} {c : Command} {o : Options}
    (h : CommandLine.Asks plain c o) (hvalue : Flag.readValue s.flag.kind value = .ok v) :
    CommandLine.Asks (s.word value :: plain) c ⟨(s.flag.name, v) :: o.settings, o.arguments⟩ := by
  obtain ⟨hc, calledAs, rest, hfind, hparse⟩ := h
  refine ⟨hc, calledAs, s.word value :: rest, Command.find_word hfind, ?_⟩
  have hplain : isPlainArgument (s.word value) = false := by
    simp [isPlainArgument, SharedSetting.word]
  have hfront := Options.parseFrom_front (c.flags ++ Flag.globals) rest [(s.flag.name, v)] .empty
  rw [Options.parse] at hparse ⊢
  rw [hparse] at hfront
  rw [Options.parseFrom, hplain, if_neg Bool.false_ne_true, if_neg SharedSetting.word_ne_dashes,
    s.step_word c hvalue]
  exact hfront

theorem lookup_singleton {α : Type} (key name : Bytes) (a : α) :
    List.lookup key [(name, a)] = if key = name then some a else none := by
  by_cases h : key = name
  · simp [h]
  · simp [List.lookup_cons, h, beq_false_of_ne h]

theorem Options.gains_front {o : Options} {name : Bytes} (h : o.value? name = none) :
    o.Gains name v ⟨(name, v) :: o.settings, o.arguments⟩ := by
  have hvalue : ∀ other, Options.value? ⟨(name, v) :: o.settings, o.arguments⟩ other =
      (o.value? other).or (if other = name then some v else none) := by
    intro other
    rw [Options.value?, List.reverse_cons, List.lookup_append, lookup_singleton, ← Options.value?]
  refine ⟨rfl, h, ?_, ?_⟩
  · rw [hvalue, h, if_pos rfl, Option.none_or]
  · intro other hne
    rw [hvalue, if_neg hne, Option.or_none]

/-- The flag of a setting can be put in front of every command line that does not set it. -/
theorem CommandLine.adds_word {plain : List Bytes} {c : Command} {o : Options}
    (h : CommandLine.Asks plain c o) (hunset : o.value? s.flag.name = none)
    (hvalue : Flag.readValue s.flag.kind value = .ok v) :
    CommandLine.Adds s v plain (s.word value :: plain) :=
  ⟨c, o, _, h, CommandLine.asks_word h hvalue, Options.gains_front hunset⟩

end Front

namespace Layer

variable {flags : List Flag} {f : Flag} {o o' : Options} {v : FlagValue}

/-- One flag more gives one key more. -/
theorem sameBut_ofOptions (hflags : (flags.map fun f => flagKey f.name).Nodup)
    (ho : o.Among flags) (ho' : o'.Among flags) (h : o.Gains f.name v o') :
    SameBut (flagKey f.name) (ofOptions o) (ofOptions o') := by
  intro key hne
  by_cases hkey : ∃ g ∈ flags, flagKey g.name = key
  · obtain ⟨g, hg, rfl⟩ := hkey
    have hname : g.name ≠ f.name := fun he => hne (congrArg flagKey he)
    rw [value?_ofOptions_of_mem hflags ho hg, value?_ofOptions_of_mem hflags ho' hg,
      h.others g.name hname]
  · have hnone : ∀ {p : Options}, p.Among flags → (ofOptions p).value? key = none := by
      intro p hp
      apply value?_ofOptions_eq_none
      intro s hs he
      obtain ⟨g, hg, hname⟩ := hp s hs
      exact hkey ⟨g, hg, hname ▸ he⟩
    rw [hnone ho, hnone ho']

end Layer

/-- A variable more gives one key more. -/
theorem SharedSetting.ofEnvironment_insert (s : SharedSetting) (t : Bytes)
    {before behind : List (Bytes × Bytes)}
    (h : ¬ (Layer.ofEnvironment (before ++ behind)).Sets s.key) :
    (Layer.ofEnvironment (before ++ (s.variableName, t) :: behind)).value? s.key =
        some (.scalar (.text t)) ∧
      Layer.SameBut s.key (.ofEnvironment (before ++ behind))
        (.ofEnvironment (before ++ (s.variableName, t) :: behind)) := by
  have hsplit : Layer.ofEnvironment (before ++ behind) =
      Layer.ofEnvironment before ++ Layer.ofEnvironment behind := List.flatMap_append
  have hinsert : Layer.ofEnvironment (before ++ (s.variableName, t) :: behind) =
      Layer.ofEnvironment before ++ ([(s.key, .scalar (.text t))] ++ Layer.ofEnvironment behind) := by
    rw [Layer.ofEnvironment, List.flatMap_append, List.flatMap_cons, s.ofVariable_eq]
    rfl
  have hsingle : ∀ key, Layer.value? [(s.key, .scalar (.text t))] key =
      if key = s.key then some (.scalar (.text t)) else none :=
    fun key => lookup_singleton key s.key _
  rw [← Layer.value?_eq_none_iff, hsplit, Layer.value?_append, Option.or_eq_none_iff] at h
  rw [hsplit, hinsert]
  constructor
  · rw [Layer.value?_append, Layer.value?_append, hsingle, if_pos rfl, h.1]
    rfl
  · intro key hne
    simp only [Layer.value?_append, hsingle, if_neg hne, Option.or_none]

namespace Layers

/-- The settings see of the value for `verbose` only whether it is true. -/
theorem settings_congr_of_toBool {l l' : Layers} {x x' : Yaml.Value}
    (hx : l.value? (utf8 "verbose") = some x) (hx' : l'.value? (utf8 "verbose") = some x')
    (hsame : x'.toBool = x.toBool)
    (h : ∀ key, key ≠ utf8 "verbose" → l'.value? key = l.value? key) :
    Config.settings l' = Config.settings l := by
  have hverbose : l'.setting "verbose" Settings.default.verbose Yaml.Value.toBool =
      l.setting "verbose" Settings.default.verbose Yaml.Value.toBool := by
    simp only [setting, hx, hx', hsame]
  have hothers : ∀ key ∈ ["log_level", "output", "color", "watch_debounce", "history_file",
      "check_jobs"], ∀ {α : Type} (d : α) (f : Yaml.Value → Except Misfit α),
      l'.setting key d f = l.setting key d f := by
    intro key hkey α d f
    have hne : utf8 key ≠ utf8 "verbose" := by
      revert key
      decide +kernel
    simp only [setting, h _ hne]
  have hdecode : l'.decode = l.decode := by
    simp only [decode, hverbose, hothers, List.mem_cons, true_or, or_true]
  rw [Config.settings, Config.settings, hdecode]

variable {s : SharedSetting} {t : Bytes} {v : FlagValue}

/-- A value of the flags and a text of the environment that stands for it make the same settings. -/
theorem settings_eq_of_denotes (hvalue : s.Denotes t v)
    {file environment environment' flags flags' : Layer}
    (hflag : flags'.value? s.key = some (Layer.ofFlagValue v)) (hunset : flags.value? s.key = none)
    (hflags : Layer.SameBut s.key flags flags')
    (hvariable : environment'.value? s.key = some (.scalar (.text t)))
    (henvironment : Layer.SameBut s.key environment environment') :
    Config.settings ⟨file, environment, flags'⟩ = Config.settings ⟨file, environment', flags⟩ := by
  have hothers : ∀ key, key ≠ s.key →
      value? ⟨file, environment, flags'⟩ key = value? ⟨file, environment', flags⟩ key := by
    intro key hne
    simp only [value?, hflags key hne, henvironment key hne]
  have hbyFlag : value? ⟨file, environment, flags'⟩ s.key = some (Layer.ofFlagValue v) := by
    simp only [value?, hflag, Option.some_or]
  have hbyVariable : value? ⟨file, environment', flags⟩ s.key = some (.scalar (.text t)) := by
    simp only [value?, hunset, hvariable, Option.none_or, Option.some_or]
  by_cases hs : s = .verbose
  · subst hs
    obtain ⟨on, rfl, hon⟩ := hvalue
    have hbool : (Layer.ofFlagValue (.switch on)).toBool =
        Yaml.Value.toBool (.scalar (.text t)) := by
      rw [hon]
      rfl
    exact settings_congr_of_toBool hbyVariable hbyFlag hbool hothers
  · have htext : v = .text t := by
      cases s with
      | verbose => exact absurd rfl hs
      | logLevel => exact hvalue
      | output => exact hvalue
      | color => exact hvalue
    subst htext
    apply settings_congr
    intro key
    by_cases hkey : key = s.key
    · rw [hkey, hbyFlag, hbyVariable]
      rfl
    · exact hothers key hkey

end Layers

section Effects

variable {s : SharedSetting} {t : Bytes} {v : FlagValue} {c : Command} {o o' : Options}

namespace Options.Gains

variable {name : Bytes}

theorem isOn (h : o.Gains name v o') {other : String} (hne : utf8 other ≠ name) :
    o'.isOn other = o.isOn other := by
  rw [Options.isOn, Options.isOn, h.others _ hne]

theorem textOf (h : o.Gains name v o') {other : String} (hne : utf8 other ≠ name) :
    o'.textOf other = o.textOf other := by
  rw [Options.textOf, Options.textOf, h.others _ hne]

end Options.Gains

/-- The flags that a command looks at itself supply no setting. -/
theorem SharedSetting.ne_name (s : SharedSetting) :
    ∀ name ∈ ["config", "help", "watch", "write", "list"], utf8 name ≠ s.flag.name := by
  cases s <;> decide +kernel

/-- A setting is loaded alike from its flag and from its variable. -/
theorem Config.load_eq_of_gains (hvalue : s.Denotes t v) (ho : o.Among (c.flags ++ Flag.globals))
    (ho' : o'.Among (c.flags ++ Flag.globals)) (h : o.Gains s.flag.name v o') (files : FileTree)
    {before behind : List (Bytes × Bytes)}
    (hunset : ¬ (Layer.ofEnvironment (before ++ behind)).Sets s.key) (asked : Bytes) :
    Config.load files (before ++ behind) asked o' =
      Config.load files (before ++ (s.variableName, t) :: behind) asked o := by
  have hflags := Command.nodup_flagKeys c
  have hmem := s.flag_mem c
  have hgiven := Layer.value?_ofOptions_of_mem hflags ho' hmem
  have hnone := Layer.value?_ofOptions_of_mem hflags ho hmem
  have hsame := Layer.sameBut_ofOptions hflags ho ho' h
  rw [h.given] at hgiven
  rw [h.unset] at hnone
  rw [s.flagKey_flag] at hgiven hnone hsame
  obtain ⟨hvariable, henvironment⟩ := s.ofEnvironment_insert t hunset
  rw [Config.load, Config.load]
  cases Config.fileLayer files (Config.findFile files asked) with
  | error e => rfl
  | ok file =>
    exact Layers.settings_eq_of_denotes hvalue hgiven hnone hsame hvariable henvironment

def Command.effect (c : Command) (b : Build) (w : World) (o : Options) : Effect :=
  c.afterFlags c.path Flag.globals w o (match c with
    | .help => .printing w.files (Command.helpFor o.arguments)
    | .completion => .printing w.files (line (Command.scriptHead (o.arguments.headD [])))
    | _ => c.configured b w o)

theorem CommandLine.Asks.among {arguments : List Bytes} (h : CommandLine.Asks arguments c o) :
    o.Among (c.flags ++ Flag.globals) := by
  obtain ⟨-, calledAs, rest, -, hparse⟩ := h
  exact Options.among_of_parse hparse

theorem CommandLine.execute_of_asks {arguments : List Bytes} (h : CommandLine.Asks arguments c o)
    (b : Build) (w : World) :
    CommandLine.execute b w arguments = CommandLine.finish o (c.effect b w o) := by
  obtain ⟨hc, calledAs, rest, hfind, hparse⟩ := h
  rw [CommandLine.execute, hfind]
  cases c with
  | complete => exact absurd rfl hc
  | _ => simp only [CommandLine.command, hparse, Command.effect]

variable {files : FileTree} {environment environment' : List (Bytes × Bytes)} {input : Bytes}
  {cancelled : Bool}

theorem Command.work_congr (h : o.Gains s.flag.name v o') (b : Build) (ctx : Context) :
    c.work b ctx ⟨files, environment, input, cancelled⟩ o' =
      c.work b ctx ⟨files, environment', input, cancelled⟩ o := by
  have hwatch := h.isOn (s.ne_name "watch" (by simp))
  have hwrite := h.isOn (s.ne_name "write" (by simp))
  have hlist := h.isOn (s.ne_name "list" (by simp))
  cases c <;> simp only [Command.work, h.arguments, hwatch, hwrite, hlist]
  rfl

/-- A command that loads the same settings does the same. -/
theorem Command.effect_congr (h : o.Gains s.flag.name v o') (b : Build)
    (hload : ∀ asked, Config.load files environment asked o' =
      Config.load files environment' asked o) :
    c.effect b ⟨files, environment, input, cancelled⟩ o' =
      c.effect b ⟨files, environment', input, cancelled⟩ o := by
  have hhelp := h.isOn (s.ne_name "help" (by simp))
  have hconfig := h.textOf (s.ne_name "config" (by simp))
  have hwork : ∀ ctx, c.work b ctx ⟨files, environment, input, cancelled⟩ o' =
      c.work b ctx ⟨files, environment', input, cancelled⟩ o := Command.work_congr h b
  have hconfigured : c.configured b ⟨files, environment, input, cancelled⟩ o' =
      c.configured b ⟨files, environment', input, cancelled⟩ o := by
    simp only [Command.configured, hconfig, hload, hwork]
  simp only [Command.effect, Command.afterFlags, hhelp, h.arguments, hconfigured]

/-- A command line that loads the same settings starts the same watch. -/
theorem CommandLine.watching?_congr {plain flagged : List Bytes}
    (hplain : CommandLine.Asks plain c o) (hflagged : CommandLine.Asks flagged c o')
    (h : o.Gains s.flag.name v o')
    (hload : ∀ asked, Config.load files environment asked o' =
      Config.load files environment' asked o) :
    CommandLine.watching? ⟨files, environment, input, cancelled⟩ flagged =
      CommandLine.watching? ⟨files, environment', input, cancelled⟩ plain := by
  have hhelp := h.isOn (s.ne_name "help" (by simp))
  have hwatch := h.isOn (s.ne_name "watch" (by simp))
  have hconfig := h.textOf (s.ne_name "config" (by simp))
  obtain ⟨-, _, rest, hfind, hparse⟩ := hplain
  obtain ⟨-, _, rest', hfind', hparse'⟩ := hflagged
  rw [CommandLine.watching?, CommandLine.watching?, hfind, hfind']
  cases c with
  | run => simp only [hparse, hparse', hhelp, hwatch, hconfig, hload, h.arguments]
  | _ => rfl

/-- A report that is coloured starts with an escape sequence, and one that is not with a letter. -/
theorem Failure.head?_diagnostic (colored : Bool) (f : Failure) :
    (f.diagnostic colored).head? = some (if colored then 27 else 69) := by
  have hhead : (Style.error.render colored (utf8 "Error:")).head? =
      some (if colored then 27 else 69) := by
    cases colored <;> with_unfolding_all decide
  simp only [Failure.diagnostic]
  split
  · split <;> simp only [List.append_assoc, List.head?_append, hhead, Option.some_or]
  · simp only [List.append_assoc, List.head?_append, hhead, Option.some_or]

namespace CommandLine

theorem finish_eq (o : Options) (e : Effect) :
    finish o e =
      ⟨e.out, (e.reported (reportColored o)).err, [], e.files, e.failure.isSome⟩ := by
  rw [finish, Effect.reported]
  cases e.failure <;> rfl

theorem reportColored_eq (h : o.Gains s.flag.name v o') (hs : s ≠ .color) :
    reportColored o' = reportColored o := by
  have hne : utf8 "color" ≠ s.flag.name := by
    cases s with
    | color => exact absurd rfl hs
    | _ => decide +kernel
  rw [reportColored, reportColored, h.textOf hne]

theorem reportColored_of_unset (h : o.value? (utf8 "color") = none) : reportColored o = false := by
  rw [reportColored, Options.textOf, h]
  with_unfolding_all decide

theorem reportColored_iff (h : o.value? (utf8 "color") = some (.text t)) :
    reportColored o = true ↔ parseColor t = .ok (utf8 "always") := by
  rw [reportColored, Options.textOf, h]
  cases parseColor t with
  | error e => simp
  | ok name => simp

/-- Only the flag for the colour changes whether reports are coloured, and only if it asks for
colour. -/
theorem reportColored_cases (hvalue : s.Denotes t v) (h : o.Gains s.flag.name v o') :
    (s = .color ∧ parseColor t = .ok (utf8 "always") ∧
      reportColored o = false ∧ reportColored o' = true) ∨
    (¬ (s = .color ∧ parseColor t = .ok (utf8 "always")) ∧
      reportColored o' = reportColored o) := by
  by_cases hs : s = .color
  · subst hs
    have htext : v = .text t := hvalue
    have hplain : reportColored o = false := reportColored_of_unset h.unset
    have hiff : reportColored o' = true ↔ _ := reportColored_iff (htext ▸ h.given)
    by_cases halways : parseColor t = .ok (utf8 "always")
    · exact .inl ⟨rfl, halways, hplain, hiff.mpr halways⟩
    · have hflagged : reportColored o' = false := Bool.eq_false_iff.mpr (mt hiff.mp halways)
      exact .inr ⟨fun hboth => halways hboth.2, hflagged.trans hplain.symm⟩
  · exact .inr ⟨fun hboth => hs hboth.1, reportColored_eq h hs⟩

/-- Two reports of one failure differ if one of them is coloured. -/
theorem err_reported_eq_iff (e : Effect) (colored colored' : Bool) :
    (e.reported colored').err = (e.reported colored).err ↔
      e.failure = none ∨ colored' = colored := by
  rw [Effect.reported, Effect.reported]
  cases he : e.failure with
  | none => simp
  | some f =>
    have hne : line (f.diagnostic true) ≠ line (f.diagnostic false) := by
      intro heq
      have hhead := congrArg List.head? heq
      simp [line, List.head?_append, Failure.head?_diagnostic] at hhead
    cases colored <;> cases colored' <;> simp [hne, hne.symm]

end CommandLine

end Effects

/-- The flag of a setting can be put in front of every command line that does not set it. Wherever
it stands, it leads to the same as a variable of the environment with the same value: the same
output, files and exit status, and the same watch. The error streams are the same as well, unless
the setting is the colour, its value asks for colour and the command fails; then they differ in the
final report of the failure alone, which is coloured for the flag and plain for the variable. This
is about outputs that are no terminals; there `auto` colours nothing and makes no tables. -/
theorem flag_and_variable_agree (s : SharedSetting) (t : Bytes) (v : FlagValue)
    (hvalue : s.Denotes t v) :
    (∀ value plain c o, Flag.readValue s.flag.kind value = .ok v → CommandLine.Asks plain c o →
      o.value? s.flag.name = none → CommandLine.Adds s v plain (s.word value :: plain)) ∧
    ∀ (b : Build) (files : FileTree) (before behind : List (Bytes × Bytes)) (input : Bytes)
      (cancelled : Bool) (plain flagged : List Bytes),
      ¬ (Layer.ofEnvironment (before ++ behind)).Sets s.key →
      CommandLine.Adds s v plain flagged →
      let w : World := ⟨files, before ++ behind, input, cancelled⟩
      let w' : World := ⟨files, before ++ (s.variableName, t) :: behind, input, cancelled⟩
      let byFlag := CommandLine.execute b w flagged
      let byVariable := CommandLine.execute b w' plain
      (byFlag.out = byVariable.out ∧ byFlag.notes = byVariable.notes ∧
        byFlag.files = byVariable.files ∧ byFlag.failed = byVariable.failed) ∧
      CommandLine.watching? w flagged = CommandLine.watching? w' plain ∧
      (byFlag.err = byVariable.err ↔
        ¬ (s = .color ∧ parseColor t = .ok (utf8 "always") ∧ byVariable.failed = true)) ∧
      (byFlag.err ≠ byVariable.err → ∃ log f,
        byFlag.err = log ++ line (Failure.diagnostic true f) ∧
        byVariable.err = log ++ line (Failure.diagnostic false f)) := by
  constructor
  · intro value plain c o hread hasks hunset
    exact CommandLine.adds_word hasks hunset hread
  intro b files before behind input cancelled plain flagged hunset hadds w w' byFlag byVariable
  obtain ⟨c, o, o', hplain, hflagged, hgains⟩ := hadds
  have hload := Config.load_eq_of_gains hvalue hplain.among hflagged.among hgains files hunset
  have heffect : c.effect b w o' = c.effect b w' o := Command.effect_congr hgains b hload
  have hbyFlag : byFlag = _ := CommandLine.execute_of_asks hflagged b w
  have hbyVariable : byVariable = _ := CommandLine.execute_of_asks hplain b w'
  rw [heffect, CommandLine.finish_eq] at hbyFlag
  rw [CommandLine.finish_eq] at hbyVariable
  generalize c.effect b w' o = e at hbyFlag hbyVariable
  rw [hbyFlag, hbyVariable]
  refine ⟨⟨rfl, rfl, rfl, rfl⟩, CommandLine.watching?_congr hplain hflagged hgains hload, ?_⟩
  rw [ne_eq, CommandLine.err_reported_eq_iff]
  obtain ⟨hs, halways, hoff, hon⟩ | ⟨hnot, hsame⟩ := CommandLine.reportColored_cases hvalue hgains
  · rw [hoff, hon, Effect.reported, Effect.reported]
    cases he : e.failure with
    | none => simp
    | some f => exact ⟨by simp [hs, halways], fun _ => ⟨e.err, f, rfl, rfl⟩⟩
  · refine ⟨iff_of_true (.inr hsame) fun h => hnot ⟨h.1, h.2.1⟩, fun h => ?_⟩
    exact absurd (.inr hsame) h

/-- A program that prints and then fails is run verbosely, whatever the log level says: by the flag
in front of the command and by a variable between two others. -/
theorem flag_and_variable_agree_verbose :
    let files : FileTree := ⟨[], [], [([utf8 "a.xp"], utf8 "print 1;print x;")]⟩
    let before := [(utf8 "XPRES_LOG_LEVEL", utf8 "error")]
    let behind := [(utf8 "XPRES_OUTPUT", utf8 "json")]
    let plain := [utf8 "run", utf8 "a.xp"]
    let flagged := utf8 "--verbose=true" :: plain
    let environment := before ++ (utf8 "XPRES_VERBOSE", utf8 "T") :: behind
    let byFlag := CommandLine.execute default ⟨files, before ++ behind, [], false⟩ flagged
    let byVariable := CommandLine.execute default ⟨files, environment, [], false⟩ plain
    (SharedSetting.verbose.Denotes (utf8 "T") (.switch true) ∧
      CommandLine.Adds .verbose (.switch true) plain flagged) ∧
    byVariable.out = utf8 "1\n" ∧ byVariable.failed = true ∧
    (utf8 "level=DEBUG msg=\"starting run\" file=a.xp bytes=16\n").isPrefixOf byVariable.err ∧
    byFlag.out = byVariable.out ∧ byFlag.err = byVariable.err ∧
    byFlag.files = byVariable.files ∧ byFlag.failed = byVariable.failed := by
  intro files before behind plain flagged environment byFlag byVariable
  have hvalue : SharedSetting.verbose.Denotes (utf8 "T") (.switch true) :=
    ⟨true, rfl, by decide +kernel⟩
  obtain ⟨hfront, hagree⟩ := flag_and_variable_agree .verbose (utf8 "T") (.switch true) hvalue
  have hasks : CommandLine.Asks plain .run
      (Options.parse (Command.run.flags ++ Flag.globals) (Command.without (utf8 "run") plain)).1 :=
    ⟨by decide, utf8 "run", _,
      Command.find_eq_iff.mpr ⟨by decide +kernel, by decide +kernel, rfl⟩,
      Prod.ext rfl (by decide +kernel)⟩
  have hword : flagged = SharedSetting.verbose.word (utf8 "true") :: plain := by decide +kernel
  have hadds : CommandLine.Adds .verbose (.switch true) plain flagged := by
    rw [hword]
    exact hfront (utf8 "true") plain .run _ (by decide +kernel) hasks (by decide +kernel)
  have hunset : utf8 "verbose" ∉ (Layer.ofEnvironment (before ++ behind)).map Prod.fst := by
    decide +kernel
  obtain ⟨⟨hout, -, hfiles, hfailed⟩, -, herr, -⟩ :=
    hagree default files before behind [] false plain flagged hunset hadds
  refine ⟨⟨hvalue, hadds⟩, by decide +kernel, by decide +kernel, by decide +kernel, hout, ?_, hfiles,
    hfailed⟩
  apply herr.mpr
  intro h
  cases h.1

/-- A variable that asks for colour is followed by the report on a file, and not by the final report
below it; the flag is followed by both. -/
theorem final_report_ignores_variable :
    let files : FileTree := ⟨[], [], [([utf8 "a.xp"], utf8 "print x;")]⟩
    let environment := [(utf8 "XPRES_COLOR", utf8 "always")]
    let plain := [utf8 "check", utf8 "a.xp"]
    let flagged := utf8 "--color=always" :: plain
    let byFlag := CommandLine.execute default ⟨files, [], [], false⟩ flagged
    let byVariable := CommandLine.execute default ⟨files, environment, [], false⟩ plain
    let report := utf8
      "\x1b[1;31mError:\x1b[0m \x1b[1ma.xp:1:7:\x1b[0m semantic error: undefined variable: x\n"
    Config.load files environment [] ⟨[], [utf8 "a.xp"]⟩ =
      .ok { Settings.default with color := utf8 "always" } ∧
    byFlag.err = report ++ utf8 "\x1b[1;31mError:\x1b[0m 1 of 1 files failed\n" ∧
    byVariable.err = report ++ utf8 "Error: 1 of 1 files failed\n" ∧
    byFlag.err ≠ byVariable.err := by
  intro files environment plain flagged byFlag byVariable report
  have hbyFlag : byFlag.err = report ++ utf8 "\x1b[1;31mError:\x1b[0m 1 of 1 files failed\n" := by
    decide +kernel
  have hbyVariable : byVariable.err = report ++ utf8 "Error: 1 of 1 files failed\n" := by
    decide +kernel
  refine ⟨eq_ok_of_toOption (by decide +kernel), hbyFlag, hbyVariable, ?_⟩
  rw [hbyFlag, hbyVariable]
  intro h
  exact absurd (List.append_cancel_left h) (by decide +kernel)

end StatementLang
