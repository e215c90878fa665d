import StatementLang.Command.Spec

/-!
# Help texts

A help text describes a command, shows how to use it, and lists its flags in columns.
-/

namespace StatementLang

namespace Flag

/-- Letter, name and kind of value, indented so that names align. -/
def heading (f : Flag) : Bytes :=
  (match f.letter with
    | some l => utf8 "  -" ++ [l] ++ utf8 ", --"
    | none => utf8 "      --") ++ f.name ++
  (if f.valueName.isEmpty then [] else space :: f.valueName)

/-- One line for each flag; usages start three columns behind the longest heading. -/
def usageLines (flags : List Flag) : Bytes :=
  let width := (flags.map fun f => f.heading.length).foldl max 0
  joinWith [newline] (flags.map fun f =>
    f.heading ++ List.replicate (width - f.heading.length + 3) space ++ f.usage)

end Flag

namespace Help

def blank : Bytes := utf8 "\n\n"

def nameWidth : Nat := 11

def commandLine (c : Command) : Bytes :=
  utf8 "\n  " ++ c.name ++ List.replicate (nameWidth - c.name.length + 1) space ++ c.short

/-- How to use the program, with the flags that are known so far. -/
def programUsage (flags : List Flag) : Bytes :=
  line (utf8 "Usage:\n  " ++ programName ++ utf8 " [command]" ++ blank ++
    utf8 "Available Commands:" ++ Command.listed.flatMap commandLine ++ blank ++
    utf8 "Flags:\n" ++ Flag.usageLines flags ++ blank ++
    utf8 "Use \"" ++ programName ++ utf8 " [command] --help\" for more information about a command.")

def program : Bytes := programText ++ blank ++ programUsage programFlags

/-- How to use a command that was called as `owner`; `inherited` are the flags of every command. -/
def usage (owner : Bytes) (inherited : List Flag) (c : Command) : Bytes :=
  line (utf8 "Usage:\n  " ++ owner ++ c.usageTail ++
    (match c.example? with
      | some e => blank ++ utf8 "Examples:\n" ++ e
      | none => []) ++
    blank ++ utf8 "Flags:\n" ++ Flag.usageLines c.flags ++
    (if inherited.isEmpty then []
      else blank ++ utf8 "Global Flags:\n" ++ Flag.usageLines inherited))

def command (owner : Bytes) (inherited : List Flag) (c : Command) : Bytes :=
  c.long ++ blank ++ usage owner inherited c

end Help

end StatementLang
