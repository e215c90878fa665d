import StatementLang.Options.Flag

/-!
# Reading a command line

Flags and arguments may be mixed; two dashes end the flags and a single dash is an argument. Flags
are set from left to right, and those before the first error stay set.
-/

namespace StatementLang

/-- The flags that were set, in order, and the arguments. -/
structure Options where
  settings : List (Bytes × FlagValue)
  arguments : List Bytes
  deriving Repr, Inhabited

namespace Options

def empty : Options := ⟨[], []⟩

/-- The value a flag was set to last. -/
def value? (o : Options) (name : Bytes) : Option FlagValue := o.settings.reverse.lookup name

def isSet (o : Options) (name : Bytes) : Bool := (o.value? name).isSome

def isOn (o : Options) (name : String) : Bool := o.value? (utf8 name) = some (.switch true)

def textOf (o : Options) (name : String) : Bytes :=
  match o.value? (utf8 name) with
  | some (.text t) => t
  | _ => []

end Options

/-- What reading one argument leads to: it is done with, or a flag wants the next argument as its
value, or it is refused. The settings it made come first. -/
inductive FlagStep where
  | done (settings : List (Bytes × FlagValue))
  | wants (settings : List (Bytes × FlagValue)) (flag : Flag) (ifMissing : FlagError)
  | refused (settings : List (Bytes × FlagValue)) (error : FlagError)

namespace FlagStep

def after (s : Bytes × FlagValue) : FlagStep → FlagStep
  | .done rest => .done (s :: rest)
  | .wants rest flag e => .wants (s :: rest) flag e
  | .refused rest e => .refused (s :: rest) e

end FlagStep

namespace Flag

def find? (flags : List Flag) (name : Bytes) : Option Flag := flags.find? (·.name == name)

def findLetter? (flags : List Flag) (letter : UInt8) : Option Flag :=
  flags.find? (·.letter == some letter)

def assign (f : Flag) (value : Bytes) : Except FlagError (Bytes × FlagValue) :=
  match readValue f.kind value with
  | .ok v => .ok (f.name, v)
  | .error reason => .error (.badValue f value reason)

def assignOnly (f : Flag) (value : Bytes) : FlagStep :=
  match f.assign value with
  | .ok s => .done [s]
  | .error e => .refused [] e

/-- Reads `--name` or `--name=value`; `body` is what follows the dashes. -/
def long (flags : List Flag) (body : Bytes) : FlagStep :=
  if body.head? = some 45 ∨ body.head? = some 61 then .refused [] (.malformed (utf8 "--" ++ body))
  else
    let (name, rest) := splitBefore (· == 61) body
    match find? flags name with
    | none => .refused [] (if name = utf8 "help" then .helpRequested else .unknown name)
    | some f =>
      match rest with
      | _ :: value => f.assignOnly value
      | [] => if f.kind = .switch then .done [(name, .switch true)] else .wants [] f (.valueMissing name)

/-- Reads a group of letters. A switch leaves the rest of the group to other letters; any other
flag takes the rest as its value, or the next argument if there is no rest. -/
def short (flags : List Flag) : Bytes → FlagStep
  | [] => .done []
  | l :: rest =>
    if (utf8 "test.").isPrefixOf (l :: rest) then .done []
    else match findLetter? flags l with
      | none =>
        .refused [] (if l = 104 then .helpRequested else .unknownLetter l (l :: rest))
      | some f =>
        match rest with
        | 61 :: c :: value => f.assignOnly (c :: value)
        | _ =>
          if f.kind = .switch then (short flags rest).after (f.name, .switch true)
          else if rest.isEmpty then .wants [] f (.letterValueMissing l [l])
          else f.assignOnly rest

def step (flags : List Flag) (argument : Bytes) : FlagStep :=
  match argument with
  | 45 :: 45 :: body => long flags body
  | _ :: letters => short flags letters
  | [] => .done []

end Flag

def isPlainArgument (argument : Bytes) : Bool :=
  argument.head? ≠ some 45 || argument.length = 1

namespace Options

/-- Reads the arguments one by one; what was read before an error is kept. -/
def parseFrom (flags : List Flag) : List Bytes → Options → Options × Option FlagError
  | [], o => (o, none)
  | a :: rest, o =>
    if isPlainArgument a then parseFrom flags rest { o with arguments := o.arguments ++ [a] }
    else if a = utf8 "--" then ({ o with arguments := o.arguments ++ rest }, none)
    else match Flag.step flags a with
      | .done s => parseFrom flags rest { o with settings := o.settings ++ s }
      | .refused s e => ({ o with settings := o.settings ++ s }, some e)
      | .wants s f e =>
        let o := { o with settings := o.settings ++ s }
        match rest with
        | [] => (o, some e)
        | value :: rest =>
          match f.assign value with
          | .ok v => parseFrom flags rest { o with settings := o.settings ++ [v] }
          | .error e => (o, some e)

def parse (flags : List Flag) (arguments : List Bytes) : Options × Option FlagError :=
  parseFrom flags arguments .empty

end Options

end StatementLang
