import StatementLang.Duration
import StatementLang.Number.Integer

/-!
# Flags

A flag has a long name and perhaps a letter. What it stands for is a truth value, a text, a number
or a duration; only a switch may be given without a value.
-/

namespace StatementLang

inductive FlagKind where
  | switch
  | text
  | number
  | duration
  deriving DecidableEq, Repr, Inhabited

structure Flag where
  name : Bytes
  letter : Option UInt8
  kind : FlagKind
  usage : Bytes
  deriving DecidableEq, Repr, Inhabited

/-- A duration is a number of nanoseconds. -/
inductive FlagValue where
  | switch (on : Bool)
  | text (t : Bytes)
  | number (n : Int)
  | duration (n : Int)
  deriving DecidableEq, Repr, Inhabited

inductive FlagError where
  | unknown (name : Bytes)
  | unknownLetter (letter : UInt8) (group : Bytes)
  | valueMissing (name : Bytes)
  | letterValueMissing (letter : UInt8) (group : Bytes)
  | malformed (argument : Bytes)
  | badValue (flag : Flag) (value : Bytes) (reason : Bytes)
  | helpRequested
  deriving DecidableEq, Repr

namespace Flag

def title (f : Flag) : Bytes :=
  match f.letter with
  | some l => [45, l] ++ utf8 ", --" ++ f.name
  | none => utf8 "--" ++ f.name

/-- The name of the value in a help text; a switch has none. -/
def valueName (f : Flag) : Bytes :=
  match f.kind with
  | .switch => []
  | .text => utf8 "string"
  | .number => utf8 "int"
  | .duration => utf8 "duration"

/-- Reads the text of a value; the reason for a refusal is a text. -/
def readValue (kind : FlagKind) (value : Bytes) : Except Bytes FlagValue :=
  match kind with
  | .switch =>
    match IntegerText.parseBool? value with
    | some b => .ok (.switch b)
    | none =>
      .error (utf8 "strconv.ParseBool: parsing " ++ quote value ++ utf8 ": invalid syntax")
  | .text => .ok (.text value)
  | .number =>
    match IntegerText.parse value with
    | .ok n => .ok (.number n)
    | .error p =>
      .error (utf8 "strconv.ParseInt: parsing " ++ quote value ++ utf8 ": " ++ p.message)
  | .duration =>
    match Duration.parse value with
    | .ok d => .ok (.duration d)
    | .error p => .error (p.message value)

end Flag

/-- The letter between single quotes. A byte beyond ASCII is shown as the first half of the
two-byte character with its number. -/
def quoteLetter (b : UInt8) : Bytes :=
  if b = 39 then utf8 "'\\''"
  else if b = 34 then utf8 "'\"'"
  else
    let shown := if b < 0x80 then [b] else encodeRune (0xC0 + b.toNat / 64)
    39 :: ((quote shown).drop 1).dropLast ++ [39]

def FlagError.message : FlagError → Bytes
  | .unknown name => utf8 "unknown flag: --" ++ name
  | .unknownLetter letter group =>
    utf8 "unknown shorthand flag: " ++ quoteLetter letter ++ utf8 " in -" ++ group
  | .valueMissing name => utf8 "flag needs an argument: --" ++ name
  | .letterValueMissing letter group =>
    utf8 "flag needs an argument: " ++ quoteLetter letter ++ utf8 " in -" ++ group
  | .malformed argument => utf8 "bad flag syntax: " ++ argument
  | .badValue flag value reason =>
    utf8 "invalid argument " ++ quote value ++ utf8 " for " ++ quote flag.title ++
      utf8 " flag: " ++ reason
  | .helpRequested => utf8 "pflag: help requested"

end StatementLang
