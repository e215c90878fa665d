import StatementLang.Options.Parse

/-!
# The commands

The commands of the program with their flags, their arguments and the texts that describe them.
-/

namespace StatementLang

/-- `complete` is what shells ask for completions; no help text shows it. -/
inductive Command where
  | version
  | run
  | tokens
  | check
  | repl
  | fmt
  | completion
  | help
  | complete
  deriving DecidableEq, Repr, Inhabited

inductive ArgumentRule where
  | exactly (n : Nat)
  | atLeast (n : Nat)
  | nothing
  | oneOf (names : List Bytes)
  | anything
  deriving DecidableEq, Repr

def programName : Bytes := utf8 "xpres"

def programVersion : Bytes := utf8 "0.1.0"

def programText : Bytes := utf8 "xpres executes programs written in a minimal statement language.

A program is a sequence of statements, each terminated by a semicolon:

  var x;       declare x, initialized to 0
  x = 42;      assign a literal or another variable
  print x;     write the value of x on its own line

Execution stops at the first lexical, syntax or semantic error."

namespace Flag

def switch (name : String) (letter : Option Char) (usage : String) : Flag :=
  ⟨utf8 name, letter.map fun c => UInt8.ofNat c.toNat, .switch, utf8 usage⟩

def text (name : String) (letter : Option Char) (usage : String) : Flag :=
  ⟨utf8 name, letter.map fun c => UInt8.ofNat c.toNat, .text, utf8 usage⟩

def verbose : Flag := switch "verbose" (some 'v') "Verbose output (debug logging)"

def output : Flag := text "output" (some 'o') "Output format (auto|table|plain|json|yaml)"

def color : Flag := text "color" none "Color mode (auto|always|never)"

def logLevel : Flag := text "log-level" none "Log level (debug|info|warn|error)"

def config : Flag := text "config" none "config file (default: ./xpres.yaml)"

def globals : List Flag := [color, config, logLevel, output, verbose]

def help (owner : Bytes) : Flag := ⟨utf8 "help", some 104, .switch, utf8 "help for " ++ owner⟩

def version : Flag := switch "version" none "version for xpres"

def debounce : Flag :=
  ⟨utf8 "debounce", none, .duration, utf8 "Delay before re-running after a change (watch mode)"⟩

def jobs : Flag :=
  ⟨utf8 "jobs", none, .number, utf8 "Number of files to check in parallel (0 = number of CPUs)"⟩

def history : Flag :=
  text "history" none "History file (empty uses the configured history_file)"

end Flag

namespace Command

def shells : List Bytes := ["bash", "zsh", "fish", "powershell"].map utf8

/-- The commands in the order in which they are suggested. -/
def all : List Command := [.version, .run, .tokens, .check, .repl, .fmt, .completion]

def name : Command → Bytes
  | .version => utf8 "version"
  | .run => utf8 "run"
  | .tokens => utf8 "tokens"
  | .check => utf8 "check"
  | .repl => utf8 "repl"
  | .fmt => utf8 "fmt"
  | .completion => utf8 "completion"
  | .help => utf8 "help"
  | .complete => utf8 "__complete"

/-- The commands that help lists, by name. -/
def listed : List Command := [.check, .completion, .fmt, .help, .repl, .run, .tokens, .version]

/-- The request for completions without descriptions. -/
def bareComplete : Bytes := utf8 "__completeNoDesc"

def ofName? (word : Bytes) : Option Command :=
  if word = bareComplete then some .complete
  else (all ++ [Command.help, Command.complete]).find? (·.name == word)

def path (c : Command) : Bytes := programName ++ utf8 " " ++ c.name

def short : Command → Bytes
  | .version => utf8 "Show version information"
  | .run => utf8 "Execute an xpres program"
  | .tokens => utf8 "Print the token stream of a source file"
  | .check => utf8 "Execute programs without printing their output"
  | .repl => utf8 "Start an interactive xpres session"
  | .fmt => utf8 "Format xpres source files"
  | .completion => utf8 "Generate shell completion scripts"
  | .help => utf8 "Help about any command"
  | .complete => utf8 "Request shell completion choices for the specified command-line"

def long : Command → Bytes
  | .version => utf8 "Display xpres version and build information."
  | .run => utf8 "Read an xpres source file and execute it.

Each print statement writes its value followed by a newline to stdout.
The first error stops the program; values printed before it are kept."
  | .tokens => utf8 "Tokenize an xpres source file and print each token with its position.

Output format follows --output: a table on a terminal, tab-separated lines
otherwise, or json/yaml when requested. On a lexical error the tokens read
so far are printed before the error is reported."
  | .check => utf8 "Execute one or more xpres source files with their print output discarded
and report which ones fail. Files are checked concurrently, each with its own
symbol table; results are reported in argument order."
  | .repl => utf8 "Start an interactive session. Statements are executed as soon as a line
ends with a semicolon; variables persist for the whole session.

Type .help for commands, .quit to exit."
  | .fmt => utf8 "Rewrite xpres source in canonical form: one statement per line, single
spaces between tokens and at most one blank line between statements.

By default the formatted source is printed to stdout. Formatting never
changes the token stream, so programs behave the same before and after."
  | .completion => utf8 "Generate shell completion scripts for xpres.

To load completions:

Bash:
  $ source <(xpres completion bash)

Zsh:
  $ xpres completion zsh > \"$\x7bfpath[1]\x7d/_xpres\"

Fish:
  $ xpres completion fish | source

PowerShell:
  PS> xpres completion powershell | Out-String | Invoke-Expression"
  | .help => utf8 "Help provides help for any command in the application.
Simply type xpres help [path to command] for full details."
  | .complete => utf8 "__complete is a special command that is used by the shell completion logic
to request completion choices for the specified command-line."

def example? : Command → Option Bytes
  | .run => some (utf8 "  xpres run examples/hello.xp
  xpres run --watch prog.xp")
  | .tokens => some (utf8 "  xpres tokens prog.xp
  xpres tokens -o json prog.xp")
  | .check => some (utf8 "  xpres check a.xp b.xp
  xpres check --jobs 4 progs/*.xp")
  | .fmt => some (utf8 "  xpres fmt prog.xp
  xpres fmt -w *.xp
  xpres fmt -l progs/*.xp")
  | _ => none

def usageTail : Command → Bytes
  | .run | .tokens => utf8 " <file> [flags]"
  | .check | .fmt => utf8 " <file>... [flags]"
  | .version | .repl => utf8 " [flags]"
  | .completion => utf8 " [bash|zsh|fish|powershell]"
  | .help => utf8 " [command] [flags]"
  | .complete => utf8 " [command-line]"

def flags (c : Command) : List Flag :=
  let help := Flag.help c.name
  match c with
  | .run =>
    [.debounce, help, .switch "watch" (some 'w') "Re-run the program whenever the file changes"]
  | .check => [help, .jobs]
  | .repl => [help, .history]
  | .fmt =>
    [help, .switch "list" (some 'l') "List files whose formatting differs",
      .switch "write" (some 'w') "Write result to the source file instead of stdout"]
  | _ => [help]

def rule : Command → ArgumentRule
  | .run | .tokens => .exactly 1
  | .check | .fmt | .complete => .atLeast 1
  | .version | .repl => .nothing
  | .completion => .oneOf shells
  | .help => .anything

end Command

def programFlags : List Flag :=
  [.color, .config, .help programName, .logLevel, .output, .verbose, .version]

inductive ArgumentError where
  | wrongCount (expected received : Nat)
  | tooFew (least received : Nat)
  | unexpected (argument : Bytes)
  | invalid (argument : Bytes)
  deriving DecidableEq, Repr

/-- `owner` is the name under which the command was called. -/
def ArgumentError.message (owner : Bytes) : ArgumentError → Bytes
  | .wrongCount expected received =>
    utf8 "accepts " ++ decimal expected ++ utf8 " arg(s), received " ++ decimal received
  | .tooFew least received =>
    utf8 "requires at least " ++ decimal least ++ utf8 " arg(s), only received " ++ decimal received
  | .unexpected argument =>
    utf8 "unknown command " ++ quote argument ++ utf8 " for " ++ quote owner
  | .invalid argument =>
    utf8 "invalid argument " ++ quote argument ++ utf8 " for " ++ quote owner

/-- Checks arguments; their number is checked before what they are. -/
def ArgumentRule.check (rule : ArgumentRule) (arguments : List Bytes) : Option ArgumentError :=
  match rule with
  | .exactly n => if arguments.length = n then none else some (.wrongCount n arguments.length)
  | .atLeast n => if n ≤ arguments.length then none else some (.tooFew n arguments.length)
  | .nothing => arguments.head?.map .unexpected
  | .oneOf names =>
    if arguments.length ≠ 1 then some (.wrongCount 1 arguments.length)
    else (arguments.find? (!names.contains ·)).map .invalid
  | .anything => none

end StatementLang
