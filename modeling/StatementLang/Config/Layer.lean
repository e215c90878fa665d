import StatementLang.Options.Parse
import StatementLang.Text.LetterCase
import StatementLang.Yaml.Decode

/-!
# Layers of configuration

Every source of configuration is a layer of values by key. A key takes its value from the topmost
layer that has it: flags lie above the environment, the environment above the file, and the file
above the defaults.
-/

namespace StatementLang

/-- The values of one source. The last value of a key counts. -/
abbrev Layer := List (Bytes × Yaml.Value)

namespace Layer

def value? (l : Layer) (key : Bytes) : Option Yaml.Value := l.reverse.lookup key

def ofEntries (entries : List Yaml.Entry) : Layer := entries.map fun e => (e.key, e.value)

def environmentMark : Bytes := utf8 "XPRES_"

/-- The layer of one variable. The rest of its name in lower case is the key; a dot in it makes the
part before the dot a mapping. If one key has a plain and a dotted variable, it is open which of the
two counts; here the later one does. -/
def ofVariable (name value : Bytes) : Layer :=
  if !environmentMark.isPrefixOf name then []
  else
    let key := toLower (name.drop environmentMark.length)
    if key.isEmpty then []
    else match splitBefore (· == 46) key with
      | (_, []) => [(key, .scalar (.text value))]
      | (outer, _) => [(outer, .mapping true [])]

def ofEnvironment (environment : List (Bytes × Bytes)) : Layer :=
  environment.flatMap fun v => ofVariable v.1 v.2

def flagKey (name : Bytes) : Bytes :=
  if name = utf8 "debounce" then utf8 "watch_debounce"
  else if name = utf8 "history" then utf8 "history_file"
  else if name = utf8 "jobs" then utf8 "check_jobs"
  else name.map fun b => if b = 45 then 95 else b

def ofFlagValue : FlagValue → Yaml.Value
  | .switch b => .scalar (.bool b)
  | .text t => .scalar (.text t)
  | .number n => .scalar (.int n)
  | .duration n => .scalar (.int n)

/-- Only flags that were set count. -/
def ofOptions (o : Options) : Layer := o.settings.map fun s => (flagKey s.1, ofFlagValue s.2)

end Layer

/-- The layers from the lowest to the topmost. -/
structure Layers where
  file : Layer
  environment : Layer
  flags : Layer
  deriving Inhabited

namespace Layers

/-- The value of a key; none if only a default is left. -/
def value? (l : Layers) (key : Bytes) : Option Yaml.Value :=
  (l.flags.value? key).or ((l.environment.value? key).or (l.file.value? key))

end Layers

end StatementLang
