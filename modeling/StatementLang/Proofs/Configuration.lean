import Mathlib.Tactic.Common
import StatementLang.Command.Execute
import StatementLang.Proofs.Lexing

/-!
# Settings that are accepted

Settings that pass loading have a level that can be read and no negative counts. The output format
and the colour mode are among the names that are known, or empty, with one exception: a value that
is a number or a truth value is taken for its text, and this text is never one of the names. Only
then does a dump refuse the format.
-/

namespace StatementLang

/-- Numbers and truth values, which are written without being texts. -/
def Yaml.Scalar.isBare : Yaml.Scalar → Bool
  | .bool _ | .int _ | .float _ => true
  | _ => false

/-- The text starts with a byte that is no letter in lower case. -/
def startsNoName (text : Bytes) : Bool := text.head?.any fun b => !isLower b

theorem startsNoName_append {text : Bytes} (h : startsNoName text) (rest : Bytes) :
    startsNoName (text ++ rest) := by
  cases text with
  | nil => cases h
  | cons b text => exact h

theorem startsNoName_take {text : Bytes} (h : startsNoName text) {k : Nat} (hk : k ≠ 0) :
    startsNoName (text.take k) := by
  cases text with
  | nil => cases h
  | cons b text =>
    obtain ⟨k, rfl⟩ := Nat.exists_eq_succ_of_ne_zero hk
    exact h

theorem startsNoName_decimal (n : Nat) : startsNoName (decimal n) := by
  induction n using Nat.strongRecOn with
  | ind n ih =>
    by_cases h : n < 10
    · have hdigits : ∀ d < 10, startsNoName [digitByte d] := by decide
      rw [decimal_small h]
      exact hdigits n h
    · rw [decimal_large (by omega)]
      exact startsNoName_append (ih (n / 10) (by omega)) _

theorem startsNoName_intText (n : Int) : startsNoName (intText n) := by
  cases n with
  | ofNat n => exact startsNoName_decimal n
  | negSucc n => rfl

/-- Zeros are put in front of the digits until one stands before the point. -/
theorem startsNoName_positional (digits : Nat) (exponent : Int) :
    startsNoName (Double.positional digits exponent) := by
  simp only [Double.positional]
  split
  · generalize hpadded : List.replicate (exponent.natAbs + 1 - (decimal digits).length) 48 ++
      decimal digits = padded
    have hlength : exponent.natAbs < padded.length := by
      rw [← hpadded, List.length_append, List.length_replicate]
      omega
    have hstarts : startsNoName padded := by
      rw [← hpadded]
      cases exponent.natAbs + 1 - (decimal digits).length with
      | zero => exact startsNoName_decimal digits
      | succ k => rfl
    have hwhole := startsNoName_take hstarts (Nat.sub_ne_zero_of_lt hlength)
    split
    · exact hwhole
    · exact startsNoName_append hwhole _
  · exact startsNoName_decimal _

/-- The text of a number or a truth value is no name. -/
theorem startsNoName_plainText {x : Yaml.Scalar} (h : x.isBare) :
    startsNoName (Yaml.Value.plainText x) := by
  cases x with
  | bool b => cases b <;> with_unfolding_all decide
  | int n => exact startsNoName_intText n
  | float x =>
    cases x with
    | finite negative mantissa exponent =>
      cases negative with
      | false => exact startsNoName_positional _ _
      | true => rfl
    | infinite negative => cases negative <;> with_unfolding_all decide
    | nan => with_unfolding_all decide
  | _ => cases h

/-- The value that counts for a key is a number or a truth value. -/
def Layers.Bare (l : Layers) (key : String) : Prop :=
  ∃ x : Yaml.Scalar, l.value? (utf8 key) = some (.scalar x) ∧ x.isBare

namespace Yaml.Value

variable {target : String} {parse : Bytes → Except Bytes Bytes} {x : Scalar}

@[simp] theorem toChoice_null : (scalar .null).toChoice target parse = .ok [] := rfl
@[simp] theorem toChoice_text (t : Bytes) :
    (scalar (.text t)).toChoice target parse = (parse t).mapError Misfit.notChoice := by
  cases h : parse t <;> simp [toChoice, convert, foreignKind?, Except.mapError, h]
@[simp] theorem toChoice_bare (hx : x.isBare) :
    (scalar x).toChoice target parse = .ok (plainText x) := by
  cases x <;> first | rfl | cases hx
@[simp] theorem toChoice_timestamp (t : Timestamp) :
    (scalar (.timestamp t)).toChoice target parse =
      .error (.foreign (utf8 target) (utf8 "time.Time")) := rfl
@[simp] theorem toChoice_list (items : List Yaml.Value) :
    (list items).toChoice target parse =
      .error (.foreign (utf8 target) (list items).typeName) := rfl
@[simp] theorem toChoice_mapping (textKeys : Bool) (entries : List (Scalar × Yaml.Value)) :
    (mapping textKeys entries).toChoice target parse =
      .error (.foreign (utf8 target) (mapping true entries).typeName) := rfl

/-- A choice is empty, a name that was found, or the text of a number or a truth value. -/
theorem toChoice_cases {v : Yaml.Value} {name : Bytes} (h : v.toChoice target parse = .ok name) :
    (∃ x, v = .scalar x ∧ x.isBare ∧ name = plainText x) ∨
      ((∀ x, v = .scalar x → x.isBare = false) ∧ (name = [] ∨ ∃ t, parse t = .ok name)) := by
  cases v with
  | scalar x =>
    by_cases hx : x.isBare
    · rw [toChoice_bare hx] at h
      exact .inl ⟨x, rfl, hx, (Except.ok.inj h).symm⟩
    · refine .inr ⟨by rintro y ⟨⟩; simpa using hx, ?_⟩
      cases x with
      | null => exact .inl (by simpa using h.symm)
      | text t =>
        refine .inr ⟨t, ?_⟩
        cases hp : parse t with
        | ok found => simpa [Except.mapError, hp] using h
        | error reason => simp [Except.mapError, hp] at h
      | timestamp t => simp at h
      | _ => exact absurd rfl hx
  | list items => simp at h
  | mapping textKeys entries => simp at h

end Yaml.Value

/-- A choice is one of the names, since nothing chooses `auto`. -/
theorem mem_of_chooseName? {names : List Bytes} {text name : Bytes} (hauto : utf8 "auto" ∈ names)
    (h : chooseName? names text = some name) : name ∈ names := by
  simp only [chooseName?] at h
  split at h
  · rw [← Option.some.inj h]
    exact hauto
  · split at h
    · rename_i hmem
      rw [← Option.some.inj h]
      exact List.contains_iff_mem.mp hmem
    · cases h

@[simp] theorem parseFormat_eq_ok_iff {text name : Bytes} :
    parseFormat text = .ok name ↔ chooseName? formatNames text = some name := by
  rw [parseFormat]
  cases chooseName? formatNames text <;> simp

@[simp] theorem parseColor_eq_ok_iff {text name : Bytes} :
    parseColor text = .ok name ↔ chooseName? colorNames text = some name := by
  rw [parseColor]
  cases chooseName? colorNames text <;> simp

namespace Layers

variable {α : Type} {l : Layers} {key : String} {default : α} {f : Yaml.Value → Except Misfit α}

/-- A setting with nothing wrong about it is the default, or what its value is converted to. -/
theorem setting_cases (h : (l.setting key default f).2 = []) :
    (l.value? (utf8 key) = none ∧ (l.setting key default f).1 = default) ∨
      ∃ v, l.value? (utf8 key) = some v ∧ f v = .ok (l.setting key default f).1 := by
  rw [setting] at h ⊢
  cases hv : l.value? (utf8 key) with
  | none => exact .inl ⟨rfl, rfl⟩
  | some v =>
    rw [hv] at h
    cases hf : f v with
    | ok a => exact .inr ⟨v, rfl, by simp [hf]⟩
    | error m => simp [hf] at h

/-- Settings that are decoded have nothing wrong about them. -/
theorem of_decode {s : Settings} (h : l.decode = .ok s) :
    let output := l.setting "output" (utf8 "auto") (Yaml.Value.toChoice "output.Format" parseFormat)
    let color := l.setting "color" (utf8 "auto") (Yaml.Value.toChoice "output.ColorMode" parseColor)
    (s.output = output.1 ∧ output.2 = []) ∧ s.color = color.1 ∧ color.2 = [] := by
  intro output color
  simp only [decode] at h
  split at h
  · rename_i hnone
    simp only [List.append_eq_nil_iff] at hnone
    cases h
    exact ⟨⟨rfl, hnone.1.1.1.1.2⟩, rfl, hnone.1.1.1.2⟩
  · cases h

/-- A choice is among the names or empty exactly if its value is no number and no truth value. -/
theorem choice_mem_iff {names : List Bytes} {target : String} {parse : Bytes → Except Bytes Bytes}
    (hparse : ∀ {text name}, parse text = .ok name → chooseName? names text = some name)
    (hauto : utf8 "auto" ∈ names) (hnames : ∀ name ∈ names, startsNoName name = false)
    (h : (l.setting key (utf8 "auto") (Yaml.Value.toChoice target parse)).2 = []) :
    (l.setting key (utf8 "auto") (Yaml.Value.toChoice target parse)).1 ∈ [] :: names ↔
      ¬ l.Bare key := by
  rcases setting_cases h with ⟨hnone, hkept⟩ | ⟨v, hv, hchoice⟩
  · rw [hkept]
    refine iff_of_true (List.mem_cons_of_mem _ hauto) ?_
    rintro ⟨x, hx, -⟩
    rw [hnone] at hx
    cases hx
  · rcases Yaml.Value.toChoice_cases hchoice with ⟨x, rfl, hbare, htext⟩ | ⟨hother, hname⟩
    · refine iff_of_false ?_ (not_not.mpr ⟨x, hv, hbare⟩)
      have hstarts := startsNoName_plainText hbare
      rw [htext]
      intro hmem
      rcases List.mem_cons.mp hmem with hnil | hmem
      · rw [hnil] at hstarts
        cases hstarts
      · rw [hnames _ hmem] at hstarts
        cases hstarts
    · refine iff_of_true ?_ ?_
      · rcases hname with hnil | ⟨t, ht⟩
        · rw [hnil]
          exact List.mem_cons_self
        · exact List.mem_cons_of_mem _ (mem_of_chooseName? hauto (hparse ht))
      · rintro ⟨x, hx, hbare⟩
        rw [hv] at hx
        rw [hother x (Option.some.inj hx)] at hbare
        cases hbare

end Layers

theorem Settings.of_validate {s : Settings} (h : s.validate = .ok ()) :
    (∃ level, s.level = .ok level) ∧ 0 ≤ s.watchDebounce ∧ 0 ≤ s.checkJobs := by
  rw [validate] at h
  split at h
  · cases h
  · rename_i level hlevel
    split_ifs at h with hdebounce hjobs
    exact ⟨⟨level, hlevel⟩, Int.not_lt.mp hdebounce, Int.not_lt.mp hjobs⟩

/-- Only a format that is left open is resolved. -/
theorem resolveFormat_of_notMem {name : Bytes} (h : name ∉ [] :: formatNames) (terminal : Bool) :
    resolveFormat name terminal = name := by
  refine if_neg ?_
  rintro (rfl | rfl)
  · exact h (by decide +kernel)
  · exact h List.mem_cons_self

/-- A dump knows the names of the formats and no others. -/
@[simp] theorem ofName?_resolveFormat (name : Bytes) :
    DumpFormat.ofName? (resolveFormat name false) = none ↔ name ∉ [] :: formatNames := by
  by_cases h : name ∈ [] :: formatNames
  · have hknown : ∀ name ∈ [] :: formatNames,
        DumpFormat.ofName? (resolveFormat name false) ≠ none := by decide +kernel
    exact iff_of_false (hknown name h) (not_not.mpr h)
  · refine iff_of_true ?_ h
    rw [resolveFormat_of_notMem h]
    simp only [formatNames, List.map_cons, List.map_nil, List.mem_cons, List.not_mem_nil,
      or_false, not_or] at h
    simp [DumpFormat.ofName?, h]

/-- A dump refuses a format exactly if it is not among the names and not empty. -/
theorem unsupported_iff (c : Context) {files : FileTree} {path src : Bytes}
    (hread : readSource files path = .ok src) :
    (c.dumpFile files path).failure = some (.plain (unsupportedFormat c.settings.output)) ↔
      c.settings.output ∉ [] :: formatNames := by
  rw [← ofName?_resolveFormat]
  simp only [Context.dumpFile, hread, dumpTokens]
  cases hformat : DumpFormat.ofName? (resolveFormat c.settings.output false) with
  | none =>
    have hname := resolveFormat_of_notMem ((ofName?_resolveFormat _).mp hformat) false
    simp [hname]
  | some format => simp [Rendering.deliver]

theorem Config.of_settings {l : Layers} {s : Settings} (h : Config.settings l = .ok s) :
    l.decode = .ok s ∧ s.validate = .ok () := by
  rw [Config.settings] at h
  split at h
  · cases h
  · rename_i hdecode
    split at h
    · cases h
    · rename_i hvalid
      cases h
      exact ⟨hdecode, hvalid⟩

theorem Config.of_load {files : FileTree} {environment : List (Bytes × Bytes)} {asked : Bytes}
    {flags : Options} {s : Settings} (h : Config.load files environment asked flags = .ok s) :
    ∃ file, Config.fileLayer files (Config.findFile files asked) = .ok file ∧
      Config.settings ⟨file, .ofEnvironment environment, .ofOptions flags⟩ = .ok s := by
  rw [Config.load] at h
  split at h
  · cases h
  · rename_i file hfile
    exact ⟨file, hfile, h⟩

theorem Command.failure_tokens (b : Build) {w : World} {o : Options} {s : Settings}
    (h : Config.load w.files w.environment (o.textOf "config") o = .ok s) :
    (Command.tokens.configured b w o).failure =
      ((Context.ofSettings s).dumpFile w.files (o.arguments.headD [])).failure := by
  simp only [Command.configured, h]
  rfl

/-- Accepted settings have a level that can be read, a delay that is not negative and a number of
jobs that is not negative. The output format is empty or one of the names of formats exactly if the
value that counts for it is no number and no truth value, and likewise the colour mode. In the other
case, and only then, the command that dumps the tokens of a source refuses the format. -/
theorem accepted_settings_usable (files : FileTree) (environment : List (Bytes × Bytes))
    (asked : Bytes) (flags : Options) (s : Settings)
    (h : Config.load files environment asked flags = .ok s) :
    ((∃ level, s.level = .ok level) ∧ 0 ≤ s.watchDebounce ∧ 0 ≤ s.checkJobs) ∧
    ∃ file, Config.fileLayer files (Config.findFile files asked) = .ok file ∧
      let l : Layers := ⟨file, .ofEnvironment environment, .ofOptions flags⟩
      (s.output ∈ [] :: formatNames ↔ ¬ l.Bare "output") ∧
      (s.color ∈ [] :: colorNames ↔ ¬ l.Bare "color") ∧
      ∀ (b : Build) (input : Bytes) (cancelled : Bool) (src : Bytes),
        flags.textOf "config" = asked → readSource files (flags.arguments.headD []) = .ok src →
        ((Command.tokens.configured b ⟨files, environment, input, cancelled⟩ flags).failure =
          some (.plain (unsupportedFormat s.output)) ↔ l.Bare "output") := by
  obtain ⟨file, hfile, hsettings⟩ := Config.of_load h
  obtain ⟨hdecode, hvalid⟩ := Config.of_settings hsettings
  obtain ⟨⟨houtput, hfit⟩, hcolor, hfit'⟩ := Layers.of_decode hdecode
  have hauto : utf8 "auto" ∈ formatNames ∧ utf8 "auto" ∈ colorNames := by decide +kernel
  have hnames : ∀ name ∈ formatNames ++ colorNames, startsNoName name = false := by decide +kernel
  have hformat := Layers.choice_mem_iff parseFormat_eq_ok_iff.mp hauto.1
    (fun name hmem => hnames name (List.mem_append_left _ hmem)) hfit
  have hmode := Layers.choice_mem_iff parseColor_eq_ok_iff.mp hauto.2
    (fun name hmem => hnames name (List.mem_append_right _ hmem)) hfit'
  rw [← houtput] at hformat
  rw [← hcolor] at hmode
  refine ⟨Settings.of_validate hvalid, file, hfile, hformat, hmode, ?_⟩
  intro b input cancelled src hasked hread
  subst hasked
  rw [Command.failure_tokens b (w := ⟨files, environment, input, cancelled⟩) h]
  exact (unsupported_iff (Context.ofSettings s) hread).trans (hformat.not.trans not_not)

theorem eq_ok_of_toOption {ε α : Type} {x : Except ε α} {a : α} (h : x.toOption = some a) :
    x = .ok a := by
  cases x with
  | error e => cases h
  | ok b => rw [Option.some.inj h]

/-- A name in quotes is a text, whatever its case and the blanks around it, and a text of the
environment lies above a truth value of the file. -/
theorem accepted_settings_usable_texts :
    let files : FileTree := ⟨[], [], [([utf8 "xpres.yaml"],
        utf8 "output: ' JSON '\ncolor: true\ncheck_jobs: 2.5\n"), ([utf8 "a.xp"], utf8 "print 1;")]⟩
    let environment := [(utf8 "XPRES_COLOR", utf8 "Never"), (utf8 "XPRES_LOG_LEVEL", utf8 "warn+2")]
    let flags : Options := ⟨[], [utf8 "a.xp"]⟩
    let s : Settings := { Settings.default with
      logLevel := utf8 "warn+2", output := utf8 "json", color := utf8 "never", checkJobs := 2 }
    let tokens := Command.tokens.configured default ⟨files, environment, [], false⟩ flags
    Config.load files environment [] flags = .ok s ∧ (∃ level, s.level = .ok level) ∧
    ∃ file, Config.fileLayer files (Config.findFile files []) = .ok file ∧
      let l : Layers := ⟨file, .ofEnvironment environment, .ofOptions flags⟩
      (s.output ∈ [] :: formatNames ∧ ¬ l.Bare "output") ∧
      (s.color ∈ [] :: colorNames ∧ ¬ l.Bare "color") ∧
      tokens.failure ≠ some (.plain (unsupportedFormat s.output)) := by
  intro files environment flags s tokens
  have hload : Config.load files environment [] flags = .ok s :=
    eq_ok_of_toOption (by decide +kernel)
  have houtput : s.output ∈ [] :: formatNames := by decide +kernel
  have hcolor : s.color ∈ [] :: colorNames := by decide +kernel
  have hread : readSource files (utf8 "a.xp") = .ok (utf8 "print 1;") := by decide +kernel
  obtain ⟨⟨hlevel, -⟩, file, hfile, hformat, hmode, htokens⟩ :=
    accepted_settings_usable files environment [] flags s hload
  refine ⟨hload, hlevel, file, hfile, ⟨houtput, hformat.mp houtput⟩, ⟨hcolor, hmode.mp hcolor⟩, ?_⟩
  exact mt (htokens default [] false _ rfl hread).mp (hformat.mp houtput)

/-- A number and a truth value are accepted for a format and a mode, and a dump refuses the format
that they make. -/
theorem accepted_settings_unusable :
    let files : FileTree := ⟨[], [], [([utf8 "xpres.yaml"], utf8 "output: 5\ncolor: true\n"),
      ([utf8 "a.xp"], utf8 "print 1;")]⟩
    let flags : Options := ⟨[], [utf8 "a.xp"]⟩
    let s : Settings := { Settings.default with output := utf8 "5", color := utf8 "1" }
    let tokens := Command.tokens.configured default ⟨files, [], [], false⟩ flags
    Config.load files [] [] flags = .ok s ∧
    s.output ∉ [] :: formatNames ∧ s.color ∉ [] :: colorNames ∧
    tokens.failure = some (.plain (unsupportedFormat (utf8 "5"))) := by
  intro files flags s tokens
  have hload : Config.load files [] [] flags = .ok s := eq_ok_of_toOption (by decide +kernel)
  have houtput : s.output ∉ [] :: formatNames := by decide +kernel
  have hread : readSource files (utf8 "a.xp") = .ok (utf8 "print 1;") := by decide +kernel
  refine ⟨hload, houtput, by decide +kernel, ?_⟩
  rw [Command.failure_tokens default (w := ⟨files, [], [], false⟩) (o := flags) hload]
  exact (unsupported_iff (Context.ofSettings s) hread).mpr houtput

end StatementLang
