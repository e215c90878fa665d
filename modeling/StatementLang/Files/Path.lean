import StatementLang.Bytes

/-!
# Paths

A path is a text whose components are separated by slashes. The functions here look at the text
only: no file is consulted.
-/

namespace StatementLang.Path

def slash : UInt8 := 47

def isAbsolute (path : Bytes) : Bool := path.head? = some slash

def components (path : Bytes) : List Bytes := splitOn slash path

/-- Adds a component to the cleaned ones, which are kept newest first. Two dots cancel the
component before them; at the root they cancel nothing, and a relative path keeps them. -/
def push (rooted : Bool) (done : List Bytes) (part : Bytes) : List Bytes :=
  if part.isEmpty ∨ part = utf8 "." then done
  else if part = utf8 ".." then
    match done with
    | [] => if rooted then [] else [part]
    | top :: below => if top = part then part :: done else below
  else part :: done

/-- The shortest path with the same meaning, as far as the text alone shows. -/
def clean (path : Bytes) : Bytes :=
  let rooted := isAbsolute path
  let body := joinWith [slash] ((components path).foldl (push rooted) []).reverse
  if rooted then slash :: body else if body.isEmpty then utf8 "." else body

def base (path : Bytes) : Bytes :=
  if path.isEmpty then utf8 "."
  else
    let body := trimRight (· == slash) path
    if body.isEmpty then [slash] else (components body).getLastD []

def parent (path : Bytes) : Bytes :=
  clean (trimRight (· != slash) path)

/-- The cleaned path, read from the directory `start` unless it is absolute. -/
def absolute (start path : Bytes) : Bytes :=
  if isAbsolute path then clean path
  else if path.isEmpty then clean start
  else clean (start ++ slash :: path)

end StatementLang.Path
