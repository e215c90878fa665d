import StatementLang.Command.Find
import StatementLang.Command.Help
import StatementLang.Command.Interactive
import StatementLang.Command.ShellCompletion
import StatementLang.Command.Watch
import StatementLang.Config.Load

/-!
# Executing a command line

The command is found, its flags are read, help is given if asked for, the arguments are checked and
the configuration is loaded, in this order; then the command does its work.
-/

namespace StatementLang

namespace Command

/-- The work of a command that needs settings. -/
def work (c : Command) (b : Build) (ctx : Context) (w : World) (o : Options) : Effect :=
  match c with
  | .version => .printing w.files b.text
  | .run =>
    if o.isOn "watch" then ctx.startWatch w.files (o.arguments.headD [])
    else ctx.runFile w.files (o.arguments.headD [])
  | .tokens => ctx.dumpFile w.files (o.arguments.headD [])
  | .check => ctx.checkAll w.cancelled w.files o.arguments
  | .fmt => ctx.formatFiles ⟨o.isOn "write", o.isOn "list"⟩ w.files o.arguments
  | .repl => ctx.interact w
  | _ => .quiet w.files

def scriptHead (shell : Bytes) : Bytes :=
  if shell = utf8 "zsh" then utf8 "#compdef " ++ programName
  else utf8 "# " ++ shell ++ utf8 " completion for " ++ programName ++
    List.replicate 32 space ++ utf8 "-*- shell-script -*-"

/-- A text between backquotes if that is possible, and quoted otherwise. -/
def backquote (t : Bytes) : Bytes :=
  let fits (r : Rune) : Bool :=
    match r with
    | .invalid _ => false
    | .char c => (32 ≤ c || c == 9) && c ≠ 96 && c ≠ 127 && c ≠ 0xFEFF
  if (runes t).all fits then utf8 "\x60" ++ t ++ utf8 "\x60" else quote t

def helpFor (arguments : List Bytes) : Bytes :=
  let unknown := line (utf8 "Unknown help topic [" ++
      joinWith (utf8 " ") (arguments.map backquote) ++ utf8 "]") ++ Help.programUsage Flag.globals
  match find arguments with
  | .program => Help.program
  | .unknown _ => unknown
  | .command .complete _ _ => unknown
  | .command c _ _ => Help.command c.path Flag.globals c

/-- The work of a command with the configuration loaded for it. -/
def configured (c : Command) (b : Build) (w : World) (o : Options) : Effect :=
  let asked := o.textOf "config"
  match Config.load w.files w.environment asked o with
  | .error e => .failing w.files (.plain e.message)
  | .ok settings =>
    let ctx := Context.ofSettings settings
    let file := Config.findFile w.files asked
    let log := if file.isEmpty then [] else ctx.debug "using config file" [.text "path" file]
    (c.work b ctx w o).after [] log

/-- A command whose flags have been read. `owner` is the name it was called by, and `inherited` are
the flags it has from the program. -/
def afterFlags (c : Command) (owner : Bytes) (inherited : List Flag) (w : World) (o : Options)
    (proceed : Effect) : Effect :=
  if o.isOn "help" then .printing w.files (Help.command owner inherited c)
  else match c.rule.check o.arguments with
    | some e => .failing w.files (.plain (e.message owner))
    | none => proceed

/-- A command on its own, without program, configuration and log. -/
def runAlone (c : Command) (b : Build) (w : World) (arguments : List Bytes) : Effect :=
  match Options.parse c.flags arguments with
  | (_, some e) => .failing w.files (.plain e.message)
  | (o, none) => c.afterFlags c.name [] w o (c.work b .standalone w o)

end Command

/-- The end of an execution. `notes` are for a person at the terminal only. -/
structure CommandLine.Result where
  out : Bytes
  err : Bytes
  notes : Bytes
  files : FileTree
  failed : Bool
  deriving Inhabited

namespace CommandLine

/-- The colour of error reports: only the flag decides, since there may be no configuration. -/
def reportColored (o : Options) : Bool :=
  match parseColor (o.textOf "color") with
  | .ok name => name = utf8 "always"
  | .error _ => false

def finish (o : Options) (e : Effect) : Result :=
  let r := e.reported (reportColored o)
  ⟨r.out, r.err, [], r.files, e.failure.isSome⟩

/-- Without a command there is only help to give, or the version. -/
def program (w : World) (arguments : List Bytes) : Result :=
  match Options.parse programFlags arguments with
  | (o, some e) => finish o (.failing w.files (.plain e.message))
  | (o, none) =>
    finish o (.printing w.files
      (if !o.isOn "help" && o.isOn "version" then line (programName ++ utf8 " " ++ programVersion)
        else Help.program))

/-- Answers a request for completions; its arguments are no flags of its own. -/
def complete (w : World) (calledAs : Bytes) (arguments : List Bytes) : Result :=
  match Command.complete.rule.check arguments with
  | some e => finish .empty (.failing w.files (.plain (e.message Command.complete.path)))
  | none =>
    let a := ShellCompletion.answer arguments
    let descriptions := ShellCompletion.wantsDescriptions calledAs w.environment
    ⟨a.print descriptions, a.remark, a.note, w.files, false⟩

def command (b : Build) (w : World) (c : Command) (arguments : List Bytes) : Result :=
  let (o, error) := Options.parse (c.flags ++ Flag.globals) arguments
  finish o (match error with
    | some e => .failing w.files (.plain e.message)
    | none =>
      c.afterFlags c.path Flag.globals w o (match c with
        | .help => .printing w.files (Command.helpFor o.arguments)
        | .completion => .printing w.files (line (Command.scriptHead (o.arguments.headD [])))
        | _ => c.configured b w o))

def execute (b : Build) (w : World) (arguments : List Bytes) : Result :=
  match Command.find arguments with
  | .unknown word => finish .empty (.failing w.files (.plain (Command.unknownMessage word)))
  | .program => program w arguments
  | .command .complete calledAs rest => complete w calledAs rest
  | .command c _ rest => command b w c rest

/-- What a command line that starts a watch goes on with: the context and the watched path. -/
def watching? (w : World) (arguments : List Bytes) : Option (Context × Bytes) :=
  match Command.find arguments with
  | .command .run _ rest =>
    match Options.parse (Command.run.flags ++ Flag.globals) rest with
    | (_, some _) => none
    | (o, none) =>
      if o.isOn "help" || !o.isOn "watch" then none
      else match Config.load w.files w.environment (o.textOf "config") o, o.arguments with
        | .ok settings, [path] => some (.ofSettings settings, path)
        | _, _ => none
  | _ => none

end CommandLine

end StatementLang
