import StatementLang.Text.Quoted
import StatementLang.Yaml.Plain

/-!
# YAML values

What a node stands for once it is decoded, and the expression by which a message shows it.
-/

namespace StatementLang.Yaml

/-- The keys of a mapping are scalars. With `textKeys` they are texts. -/
inductive Value where
  | scalar (s : Scalar)
  | list (items : List Value)
  | mapping (textKeys : Bool) (entries : List (Scalar × Value))
  deriving Repr, Inhabited

/-- The last entry of a key counts. -/
def putEntry (k : Scalar) (v : Value) (entries : List (Scalar × Value)) : List (Scalar × Value) :=
  entries.filter (fun e => e.1 ≠ k) ++ [(k, v)]

namespace Timestamp

def monthName (month : Nat) : String :=
  ["January", "February", "March", "April", "May", "June", "July", "August", "September",
    "October", "November", "December"].getD (month - 1) ""

def zoneName : Zone → String
  | .universal => "time.UTC"
  | .noOffset => "time.Local"
  | .offset => "time.Location(\"\")"

def expression (t : Timestamp) : Bytes :=
  let numbers := [t.day, t.hour, t.minute, t.second, t.nanosecond].map decimal
  utf8 "time.Date(" ++ decimal t.year ++ utf8 ", time." ++ utf8 (monthName t.month) ++ utf8 ", " ++
    joinWith (utf8 ", ") numbers ++ utf8 ", " ++ utf8 (zoneName t.zone) ++ utf8 ")"

end Timestamp

def hexNumeral (n : Nat) : Bytes :=
  utf8 "0x" ++ ((hexDigits 16 n).dropWhile (· = 48) |> fun ds => if ds.isEmpty then [48] else ds)

namespace Scalar

/-- Integers beyond the signed ones are shown in base sixteen. -/
def expression : Scalar → Bytes
  | .null => utf8 "interface \x7b\x7d(nil)"
  | .bool b => utf8 (if b then "true" else "false")
  | .int n => if maxWord < n then hexNumeral n.toNat else intText n
  | .float x => x.shortText
  | .text t => quote t
  | .timestamp t => t.expression

def rank : Scalar → Nat
  | .null => 0
  | .bool _ => 1
  | .float _ => 2
  | .int n => if maxWord < n then 5 else 3
  | .text _ => 4
  | .timestamp _ => 6

/-- Numbers that order the scalars of one kind. -/
def order : Scalar → List Int
  | .null => []
  | .bool b => [if b then 1 else 0]
  | .float x => [x.order]
  | .int n => [n]
  | .text t => t.map fun b => (b.toNat : Int)
  | .timestamp t => [t.year, t.month, t.day, t.hour, t.minute, t.second, t.nanosecond].map Int.ofNat

/-- Whether a key is shown no later than another one. -/
def notAfter (a b : Scalar) : Bool :=
  a.rank < b.rank || (a.rank == b.rank && !b.order.lex a.order fun x y => decide (x < y))

end Scalar

namespace Value

def typeName : Value → Bytes
  | .scalar _ => utf8 "interface \x7b\x7d"
  | .list _ => utf8 "[]interface \x7b\x7d"
  | .mapping true _ => utf8 "map[string]interface \x7b\x7d"
  | .mapping false _ => utf8 "map[interface \x7b\x7d]interface \x7b\x7d"

/-- The expression that shows a value; the entries of a mapping are ordered by their keys. -/
def expression : Value → Bytes
  | .scalar s => s.expression
  | .list items =>
    typeName (.list []) ++ utf8 "\x7b" ++ joinWith (utf8 ", ") (ofItems items) ++ utf8 "\x7d"
  | .mapping textKeys entries =>
    let shown := (ofEntries entries).mergeSort fun a b => a.1.notAfter b.1
    typeName (.mapping textKeys []) ++ utf8 "\x7b" ++ joinWith (utf8 ", ") (shown.map (·.2)) ++
      utf8 "\x7d"
where
  ofItems : List Value → List Bytes
    | [] => []
    | v :: rest => v.expression :: ofItems rest
  ofEntries : List (Scalar × Value) → List (Scalar × Bytes)
    | [] => []
    | (k, v) :: rest => (k, k.expression ++ utf8 ":" ++ v.expression) :: ofEntries rest

end Value

end StatementLang.Yaml
