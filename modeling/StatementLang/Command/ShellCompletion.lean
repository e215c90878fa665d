import StatementLang.Command.Find
import StatementLang.Report.Choice

/-!
# Completion for shells

A shell hands over the command line so far and asks how its last word may go on: with a command,
with a flag, or with the value of a flag. The answer ends with a directive that tells the shell
whether files are candidates too.
-/

namespace StatementLang.ShellCompletion

/-- Whether the shell may offer files. -/
inductive Directive where
  | default
  | noFiles
  deriving DecidableEq, Repr, Inhabited

namespace Directive

def code : Directive → Nat
  | .default => 0
  | .noFiles => 4

def name : Directive → Bytes
  | .default => utf8 "ShellCompDirectiveDefault"
  | .noFiles => utf8 "ShellCompDirectiveNoFileComp"

end Directive

/-- The candidates, each perhaps with a tab and a description, and what was wrong if anything
was. -/
structure Answer where
  candidates : List Bytes
  directive : Directive
  complaint : Option Bytes
  deriving Repr, Inhabited

namespace Answer

def nothing (d : Directive) : Answer := ⟨[], d, none⟩

def complain (message : Bytes) : Answer := ⟨[], .default, some message⟩

def offer (candidates : List Bytes) : Answer := ⟨candidates, .noFiles, none⟩

end Answer

/-- The command that is completed: its name, its flags, and the arguments so far. -/
structure Subject where
  command : Option Command
  own : List Flag
  inherited : List Flag
  arguments : List Bytes

namespace Subject

def ofFound? (arguments : List Bytes) : Option Subject :=
  match Command.find arguments with
  | .unknown _ => none
  | .program => some ⟨none, programFlags, [], arguments⟩
  | .command c _ rest => some ⟨some c, c.flags, Flag.globals, rest⟩

def name (s : Subject) : Bytes := (s.command.map Command.name).getD programName

def flags (s : Subject) : List Flag := s.own ++ s.inherited

def flag? (s : Subject) (name : Bytes) : Option Flag :=
  match name with
  | [letter] => Flag.findLetter? s.flags letter
  | _ => Flag.find? s.flags name

end Subject

def isFlagArgument (a : Bytes) : Bool :=
  match a with
  | 45 :: 45 :: _ :: _ => true
  | 45 :: c :: _ => c ≠ 45
  | _ => false

/-- The name of the flag in an argument without a value: of a group of letters the last counts. -/
def flagName (a : Bytes) : Bytes :=
  match a with
  | 45 :: 45 :: name => name
  | _ => a.drop (a.length - 1)

/-- What the last word is part of: the value of a flag, or something else. `arguments` are those
that remain to be read. -/
structure Target where
  flag : Option Flag
  arguments : List Bytes
  word : Bytes
  unsupported : Option Bytes

def target (s : Subject) (word : Bytes) : Target :=
  let plain : Target := ⟨none, s.arguments, word, none⟩
  let valueOf (name : Bytes) (arguments : List Bytes) (value : Bytes) (separate : Bool) : Target :=
    match s.flag? name with
    | none => { plain with unsupported := some name }
    | some f =>
      if separate && f.kind = .switch then ⟨none, s.arguments, value, none⟩
      else ⟨some f, arguments, value, none⟩
  let previous (value : Bytes) : Target :=
    match s.arguments.getLast? with
    | some a =>
      if isFlagArgument a && !a.contains 61 then
        valueOf (flagName a) s.arguments.dropLast value true
      else { plain with word := value }
    | none => { plain with word := value }
  if word.head? = some 45 then
    match splitBefore (· == 61) word with
    | (_, []) => plain
    | (head, _ :: value) =>
      let name := flagName head
      if name.isEmpty then previous value else valueOf name s.arguments value false
  else previous word

def described (name description : Bytes) : Bytes := name ++ 9 :: description

def flagNames (word : Bytes) (f : Flag) : List Bytes :=
  let long := utf8 "--" ++ f.name
  let letters := match f.letter with
    | some l => [[45, l]]
    | none => []
  ((long :: letters).filter word.isPrefixOf).map (described · f.usage)

def commandNames (word : Bytes) : List Bytes :=
  (Command.listed.filter fun c => word.isPrefixOf c.name).map fun c => described c.name c.short

def flagValues? (f : Flag) : Option (List Bytes) :=
  if f.name = Flag.output.name then some formatNames
  else if f.name = Flag.color.name then some colorNames
  else if f.name = Flag.logLevel.name then some (["debug", "info", "warn", "error"].map utf8)
  else none

def argumentNames (c : Option Command) (arguments : List Bytes) (word : Bytes) : Answer :=
  match c with
  | none =>
    if arguments.isEmpty then .offer (commandNames word) else .nothing .default
  | some .completion =>
    if arguments.isEmpty then .offer (Command.shells.filter word.isPrefixOf) else .nothing .default
  | some .help =>
    match Command.find arguments with
    | .program => .offer (commandNames word)
    | _ => .nothing .noFiles
  | some _ => .nothing .default

def listText (texts : List Bytes) : Bytes := utf8 "[" ++ joinWith (utf8 " ") texts ++ utf8 "]"

/-- The answer for a command, given what its last word is part of. -/
def answerFor (s : Subject) (t : Target) : Answer :=
  match Options.parse s.flags t.arguments with
  | (_, some e) =>
    .complain (utf8 "Error while parsing flags from args " ++ listText t.arguments ++ utf8 ": " ++
      e.message)
  | (o, none) =>
    let ended := (Options.parse s.flags (t.arguments ++ [utf8 "--"])).1
    let flagsAllowed : Bool := ended.arguments.length ≤ o.arguments.length
    match t.unsupported, flagsAllowed with
    | some name, true =>
      .complain (utf8 "Subcommand '" ++ s.name ++ utf8 "' does not support flag '" ++ name ++
        utf8 "'")
    | _, _ =>
      if o.isSet (utf8 "help") || o.isSet (utf8 "version") then .nothing .noFiles
      else match t.flag with
        | some f =>
          if flagsAllowed then
            match flagValues? f with
            | some values => .offer values
            | none => .nothing .default
          else if s.command = some .help then argumentNames s.command o.arguments t.word
          else .nothing .default
        | none =>
          if t.word.head? = some 45 && !t.word.contains 61 && flagsAllowed then
            let unset := (s.inherited ++ s.own).filter fun f => !o.isSet f.name
            .offer (unset.flatMap (flagNames t.word))
          else argumentNames s.command o.arguments t.word

def answer (words : List Bytes) : Answer :=
  match Subject.ofFound? words.dropLast with
  | none =>
    .complain (utf8 "unable to find a command for arguments: " ++ listText words.dropLast)
  | some s =>
    if s.command = some .complete then .nothing .default
    else answerFor s (target s (words.getLastD []))

def upTo (b : UInt8) (text : Bytes) : Bytes := (splitBefore (· == b) text).1

/-- What is printed: the candidates, one on a line, and the directive. -/
def Answer.print (a : Answer) (descriptions : Bool) : Bytes :=
  (a.candidates.flatMap fun c =>
    line (trimSpace (upTo newline (if descriptions then c else upTo 9 c)))) ++
  line (utf8 ":" ++ decimal a.directive.code)

def Answer.remark (a : Answer) : Bytes :=
  line (utf8 "Completion ended with directive: " ++ a.directive.name)

/-- A complaint is for a person at the terminal and not for the shell. -/
def Answer.note (a : Answer) : Bytes :=
  match a.complaint with
  | some m => line (utf8 "[Error] " ++ m)
  | none => []

/-- Descriptions are left out on request, and if a variable says so. -/
def wantsDescriptions (calledAs : Bytes) (environment : List (Bytes × Bytes)) : Bool :=
  calledAs ≠ Command.bareComplete &&
    match environment.lookup (utf8 "XPRES_COMPLETION_DESCRIPTIONS") with
    | some v => (IntegerText.parseBool? v).getD true
    | none => true

end StatementLang.ShellCompletion
