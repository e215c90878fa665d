import StatementLang.Config.Layer
import StatementLang.Config.Settings

/-!
# From values to settings

A value is converted to the type of its setting where that makes sense: numbers and truth values
stand for each other and for texts, and texts are read. Whatever is wrong is collected, in the
order of the settings.
-/

namespace StatementLang

/-- The name of the kind of a value that has no conversion. The keys of every mapping have become
texts here. -/
def Yaml.Value.foreignKind? : Yaml.Value → Option Bytes
  | .scalar (.timestamp _) => some (utf8 "time.Time")
  | .scalar _ => none
  | .list items => some (Yaml.Value.list items).typeName
  | .mapping _ entries => some (Yaml.Value.mapping true entries).typeName

inductive Misfit where
  | foreign (target kind : Bytes)
  | notBool
  | notInt (problem : IntegerText.Problem)
  | notDuration (text : Bytes) (problem : Duration.Problem)
  | notChoice (reason : Bytes)
  deriving DecidableEq, Repr

def Misfit.message : Misfit → Bytes
  | .foreign target kind =>
    utf8 "expected type '" ++ target ++ utf8 "', got unconvertible type '" ++ kind ++ utf8 "'"
  | .notBool => utf8 "cannot parse value as 'bool': strconv.ParseBool: invalid syntax"
  | .notInt p => utf8 "cannot parse value as 'int': strconv.ParseInt: " ++ p.message
  | .notDuration text p => p.summary text
  | .notChoice reason => reason

namespace Yaml.Value

/-- Refuses a value of a foreign kind; null gives `zero`. -/
def convert {α : Type} (target : String) (zero : α) (v : Yaml.Value)
    (f : Yaml.Scalar → Except Misfit α) : Except Misfit α :=
  match v.foreignKind?, v with
  | some kind, _ => .error (.foreign (utf8 target) kind)
  | none, .scalar s => if s = .null then .ok zero else f s
  | none, _ => .ok zero

def toBool (v : Yaml.Value) : Except Misfit Bool :=
  v.convert "bool" false fun
    | .bool b => .ok b
    | .int n => .ok (n ≠ 0)
    | .float x => .ok !x.isZero
    | .text t =>
      match IntegerText.parseBool? t with
      | some b => .ok b
      | none => if t.isEmpty then .ok false else .error .notBool
    | _ => .ok false

def plainText : Yaml.Scalar → Bytes
  | .bool b => utf8 (if b then "1" else "0")
  | .int n => intText n
  | .float x => x.text
  | .text t => t
  | _ => []

def toText (v : Yaml.Value) : Except Misfit Bytes :=
  v.convert "string" [] fun s => .ok (plainText s)

/-- A choice given as a text must be one of the names; given in another way it is taken as it is. -/
def toChoice (target : String) (parse : Bytes → Except Bytes Bytes) (v : Yaml.Value) :
    Except Misfit Bytes :=
  v.convert target [] fun
    | .text t =>
      match parse t with
      | .ok name => .ok name
      | .error reason => .error (.notChoice reason)
    | s => .ok (plainText s)

def plainInt : Yaml.Scalar → Int
  | .bool b => if b then 1 else 0
  | .int n => wrapWord n
  | .float x => x.toWord
  | _ => 0

def toInt (v : Yaml.Value) : Except Misfit Int :=
  v.convert "int" 0 fun
    | .text t =>
      if t.isEmpty then .ok 0
      else match IntegerText.parse t with
        | .ok n => .ok n
        | .error p => .error (.notInt p)
    | s => .ok (plainInt s)

def toDuration (v : Yaml.Value) : Except Misfit Int :=
  v.convert "time.Duration" 0 fun
    | .text t =>
      match Duration.parse t with
      | .ok d => .ok d
      | .error p => .error (.notDuration t p)
    | s => .ok (plainInt s)

end Yaml.Value

namespace Layers

/-- The setting of a key, with what is wrong about it. A key that no layer has keeps its
default. -/
def setting {α : Type} (l : Layers) (key : String) (default : α)
    (f : Yaml.Value → Except Misfit α) : α × List (Bytes × Misfit) :=
  match l.value? (utf8 key) with
  | none => (default, [])
  | some v =>
    match f v with
    | .ok a => (a, [])
    | .error m => (default, [(utf8 key, m)])

/-- The settings of all keys, or everything that is wrong with them. -/
def decode (l : Layers) : Except (List (Bytes × Misfit)) Settings :=
  let d := Settings.default
  let (verbose, e₁) := l.setting "verbose" d.verbose Yaml.Value.toBool
  let (logLevel, e₂) := l.setting "log_level" d.logLevel Yaml.Value.toText
  let (output, e₃) := l.setting "output" d.output (Yaml.Value.toChoice "output.Format" parseFormat)
  let (color, e₄) := l.setting "color" d.color (Yaml.Value.toChoice "output.ColorMode" parseColor)
  let (debounce, e₅) := l.setting "watch_debounce" d.watchDebounce Yaml.Value.toDuration
  let (history, e₆) := l.setting "history_file" d.historyFile Yaml.Value.toText
  let (jobs, e₇) := l.setting "check_jobs" d.checkJobs Yaml.Value.toInt
  match e₁ ++ e₂ ++ e₃ ++ e₄ ++ e₅ ++ e₆ ++ e₇ with
  | [] => .ok ⟨verbose, logLevel, output, color, debounce, history, jobs⟩
  | es => .error es

end Layers

end StatementLang
