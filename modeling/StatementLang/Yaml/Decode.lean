import StatementLang.Yaml.Node
import StatementLang.Yaml.Value

/-!
# From nodes to values

A document is read into a mapping with texts as keys. What is merely unfit is collected as
complaints; everything else that is wrong ends the decoding. Aliases are expanded, and a document
that consists of little else is refused.
-/

namespace StatementLang.Yaml

def resolvableTags : List Bytes :=
  ["!!str", "!!bool", "!!int", "!!float", "!!null", "!!timestamp"].map utf8

/-- The value of a scalar; a tag that its spelling does not fit is an error. An integer with a sign
may be taken for a number with a fraction. -/
def scalarValue (tag : Bytes) (style : ScalarStyle) (t : Bytes) : Except Error Scalar :=
  if tag.isEmpty then .ok (if style = .plain then .ofPlain true t else .text t)
  else if tag = utf8 "!!binary" then
    match Base64.decode? t with
    | some bytes => .ok (.text bytes)
    | none => .error (.structural 0 (utf8 "!!binary value contains invalid base64 data"))
  else if tag = utf8 "!!str" ∨ !resolvableTags.contains tag then .ok (.text t)
  else
    let v := Scalar.ofPlain (tag = utf8 "!!timestamp") t
    if v.tag = tag then .ok v
    else match v with
      | .int n =>
        if tag = utf8 "!!float" ∧ n ≤ maxWord then
          .ok (.float ((Double.ofDecimal? (n < 0) n.natAbs 0).getD .nan))
        else .error (unfit v)
      | _ => .error (unfit v)
where
  unfit (v : Scalar) : Error :=
    .structural 0 (utf8 "cannot decode " ++ v.tag ++ utf8 " \x60" ++ t ++ utf8 "\x60 as a " ++ tag)

/-- An alias stands inside the node that it names. -/
def containsItself (name : Bytes) : Error :=
  .structural 0 (utf8 "anchor '" ++ name ++ utf8 "' value contains itself")

def wrongMerge : Error :=
  .structural 0 (utf8 "map merge requires map or sequence of maps as the value")

def excessiveAliasing : Error := .structural 0 (utf8 "document contains excessive aliasing")

/-- A collection is no key. -/
def invalidKey (v : Value) : Error := .structural 0 (utf8 "invalid map key: " ++ v.expression)

/-- A collection cannot be looked up among the keys that are taken. -/
def unhashable (v : Value) : Error :=
  .structural 0 (utf8 "runtime error: hash of unhashable type " ++ v.typeName)

namespace Node

def line : Node → Nat
  | .scalar l _ _ _ => l
  | .sequence l _ _ => l
  | .mapping l _ _ => l
  | .alias l _ _ => l
  | .cycle l _ _ => l

/-- The spelling of a scalar or an alias; collections have none. -/
def spelling : Node → Bytes
  | .scalar _ _ _ t => t
  | .alias _ name _ => name
  | .cycle _ name _ => name
  | _ => []

/-- The given tag, or the one that the node has by itself. -/
def shortTag : Node → Bytes
  | .scalar _ tag style t =>
    if !tag.isEmpty then tag
    else if style ≠ .plain then utf8 "!!str"
    else if t = utf8 "<<" then utf8 "!!merge"
    else (Scalar.ofPlain true t).tag
  | .sequence _ tag _ => if tag.isEmpty then utf8 "!!seq" else tag
  | .mapping _ tag _ => if tag.isEmpty then utf8 "!!map" else tag
  | .alias _ _ target => target.shortTag
  | .cycle _ _ ofMapping => utf8 (if ofMapping then "!!map" else "!!seq")

def isAlias : Node → Bool
  | .alias .. => true
  | .cycle .. => true
  | _ => false

def isSameKind : Node → Node → Bool
  | .scalar .., .scalar .. => true
  | .sequence .., .sequence .. => true
  | .mapping .., .mapping .. => true
  | n, m => n.isAlias && m.isAlias

/-- A key is defined once; every later definition is a complaint. -/
def duplicates : List (Node × Node) → List Complaint
  | [] => []
  | (k, _) :: rest =>
    (rest.filter fun (l, _) => k.isSameKind l && k.spelling == l.spelling).map
      (fun (l, _) => .duplicateKey l.line l.spelling k.line) ++ duplicates rest

/-- A key that merges the entries of another mapping. -/
def isMerge : Node → Bool
  | .scalar l tag style t =>
    t == utf8 "<<" && (Node.scalar l tag style t).shortTag == utf8 "!!merge"
  | _ => false

def isMapping : Node → Bool
  | .mapping .. => true
  | .alias _ _ (.mapping ..) => true
  | .cycle _ _ ofMapping => ofMapping
  | _ => false

def hasTextKeys (entries : List (Node × Node)) : Bool :=
  entries.all fun (k, _) =>
    let tag := k.shortTag
    tag == utf8 "!!str" || tag == utf8 "!!merge"

end Node

/-- The nodes decoded so far, how many of them through an alias, and the complaints, newest first. -/
structure Tally where
  decoded : Nat
  aliased : Nat
  complaints : List Complaint
  deriving Inhabited

/-- Of a thousand nodes and more, nearly all may come from aliases if they are less than 400000, and
a tenth from 4000000 on; between these the share falls evenly. -/
def Tally.isExcessive (t : Tally) : Bool :=
  100 < t.aliased && 1000 < t.decoded &&
    if t.decoded ≤ 400000 then 99 * t.decoded < 100 * t.aliased
    else if 4000000 ≤ t.decoded then t.decoded < 10 * t.aliased
    else t.decoded * (99 * 3600000 - 89 * (t.decoded - 400000)) < 360000000 * t.aliased

abbrev Decoding := StateT Tally (Except Error)

namespace Decoding

def fail {α : Type} (e : Error) : Decoding α := fun _ => .error e

def complain (cs : List Complaint) : Decoding Unit :=
  modify fun t => { t with complaints := cs.reverse ++ t.complaints }

def count (inAlias : Bool) : Decoding Unit := fun t =>
  let t := { t with decoded := t.decoded + 1, aliased := if inAlias then t.aliased + 1 else t.aliased }
  if t.isExcessive then .error excessiveAliasing else .ok ((), t)

end Decoding

/-- What a node is read into: any value, the text of a key, or the entries of a mapping that has some
already. In a mapping that is merged into another one, `taken` are the keys that count no more. -/
inductive Target where
  | any
  | text
  | entries (textKeys : Bool) (taken : Option (List Scalar)) (done : List (Scalar × Value))

def Target.typeName : Target → Bytes
  | .any => utf8 "interface \x7b\x7d"
  | .text => utf8 "string"
  | .entries textKeys _ _ => (Value.mapping textKeys []).typeName

structure Decoded where
  value : Value
  taken : Option (List Scalar)
  deriving Inhabited

structure Content where
  entries : List (Scalar × Value)
  taken : Option (List Scalar)
  deriving Inhabited

namespace Decoding

/-- Complains that a node does not fit its target, which then gets nothing. -/
def refuse (target : Target) (n : Node) : Decoding (Option Decoded) := do
  complain [.unfit n.line n.shortTag n.spelling target.typeName]
  return none

def ofScalar (target : Target) (n : Node) (s : Scalar) : Decoding (Option Decoded) :=
  match target, s with
  | .any, s => return some ⟨.scalar s, none⟩
  | .text, .null => return none
  | .text, .text t => return some ⟨.scalar (.text t), none⟩
  | .text, _ => return some ⟨.scalar (.text n.spelling), none⟩
  | .entries textKeys _ _, .null => return some ⟨.mapping textKeys [], none⟩
  | .entries .., _ => refuse target n

mutual

/-- The value of a node; a node that is unfit has none. -/
def decode (inAlias : Bool) (target : Target) : Node → Decoding (Option Decoded)
  | .scalar l tag style t => do
    count inAlias
    let s ← scalarValue tag style t
    ofScalar target (.scalar l tag style t) s
  | .sequence l tag items => do
    count inAlias
    match target with
    | .any => return some ⟨.list (← decodeItems inAlias [] items), none⟩
    | target => refuse target (.sequence l tag items)
  | .mapping l tag entries => do
    count inAlias
    let ds := Node.duplicates entries
    if !ds.isEmpty then
      complain ds
      return none
    else match target with
      | .text => refuse target (.mapping l tag entries)
      | .any =>
        let textKeys := Node.hasTextKeys entries
        let c ← decodeEntries inAlias textKeys none [] entries
        if entries.any (·.1.isMerge) then
          let taken ← keysOf inAlias [] entries
          let c ← mergeEntries inAlias textKeys (some taken) c.entries entries
          return some ⟨.mapping textKeys c.entries, none⟩
        else return some ⟨.mapping textKeys c.entries, none⟩
      | .entries textKeys taken done =>
        let c ← decodeEntries inAlias textKeys taken done entries
        if entries.any (·.1.isMerge) then
          let seen ← match c.taken with
            | some seen => pure seen
            | none => keysOf inAlias [] entries
          let m ← mergeEntries inAlias textKeys (some seen) c.entries entries
          return some ⟨.mapping textKeys m.entries, if taken.isSome then m.taken else none⟩
        else return some ⟨.mapping textKeys c.entries, c.taken⟩
  | .alias _ _ node => do
    count inAlias
    decode true target node
  | .cycle _ name _ => do
    count inAlias
    fail (containsItself name)

def decodeItems (inAlias : Bool) (done : List Value) : List Node → Decoding (List Value)
  | [] => return done.reverse
  | n :: rest => do
    match ← decode inAlias .any n with
    | some d => decodeItems inAlias (d.value :: done) rest
    | none => decodeItems inAlias done rest

/-- The entries of a mapping's own keys, added to those that it has. -/
def decodeEntries (inAlias textKeys : Bool) (taken : Option (List Scalar))
    (done : List (Scalar × Value)) : List (Node × Node) → Decoding Content
  | [] => return ⟨done, taken⟩
  | (k, v) :: rest => do
    if k.isMerge then decodeEntries inAlias textKeys taken done rest
    else match ← decode inAlias (if textKeys then .text else .any) k with
      | none => decodeEntries inAlias textKeys taken done rest
      | some ⟨.scalar key, _⟩ =>
        if (taken.getD []).contains key then decodeEntries inAlias textKeys taken done rest
        else
          let taken := taken.map (key :: ·)
          match ← decode inAlias .any v with
          | some d => decodeEntries inAlias textKeys taken (putEntry key d.value done) rest
          | none => decodeEntries inAlias textKeys taken done rest
      | some ⟨key, _⟩ => fail (if taken.isSome then unhashable key else invalidKey key)

def keysOf (inAlias : Bool) (done : List Scalar) : List (Node × Node) → Decoding (List Scalar)
  | [] => return done
  | (k, _) :: rest => do
    match ← decode inAlias .any k with
    | none => keysOf inAlias done rest
    | some ⟨.scalar key, _⟩ => keysOf inAlias (key :: done) rest
    | some ⟨key, _⟩ => fail (unhashable key)

/-- The entries that a merge key adds to those of its mapping. -/
def mergeEntries (inAlias textKeys : Bool) (taken : Option (List Scalar))
    (done : List (Scalar × Value)) : List (Node × Node) → Decoding Content
  | [] => return ⟨done, taken⟩
  | (k, v) :: rest => do
    if !k.isMerge then mergeEntries inAlias textKeys taken done rest
    else if v.isMapping then
      match ← decode inAlias (.entries textKeys taken done) v with
      | some ⟨.mapping _ entries, taken⟩ => return ⟨entries, taken⟩
      | _ => return ⟨done, taken⟩
    else match v with
      | .sequence _ _ items => mergeItems inAlias textKeys taken done items
      | _ => fail wrongMerge

/-- The entries of several mappings, of which the first one with a key counts. -/
def mergeItems (inAlias textKeys : Bool) (taken : Option (List Scalar))
    (done : List (Scalar × Value)) : List Node → Decoding Content
  | [] => return ⟨done, taken⟩
  | n :: rest => do
    if n.isMapping then
      match ← decode inAlias (.entries textKeys taken done) n with
      | some ⟨.mapping _ entries, taken⟩ => mergeItems inAlias textKeys taken entries rest
      | _ => mergeItems inAlias textKeys taken done rest
    else fail wrongMerge

end

end Decoding

structure Entry where
  key : Bytes
  value : Value
  deriving Repr, Inhabited

def Entry.of? : Scalar × Value → Option Entry
  | (.text t, v) => some ⟨t, v⟩
  | _ => none

def decodeDocument (n : Node) : Decoding (List Entry) := do
  Decoding.count false
  match ← Decoding.decode false (.entries true none []) n with
  | some ⟨.mapping _ entries, _⟩ => return entries.filterMap Entry.of?
  | _ => return []

/-- The top-level entries of a document. An empty document has none. -/
def load (text : Bytes) : Except Error (List Entry) := do
  match ← parse text with
  | none => return []
  | some n =>
    let (entries, tally) ← decodeDocument n ⟨0, 0, []⟩
    if tally.complaints.isEmpty then return entries
    else .error (.content tally.complaints.reverse)

end StatementLang.Yaml
