import StatementLang.Files.Path

/-!
# File trees

The files that a command can see. A location is the list of components below the root. A directory
is there if it was made or if something lies below it.
-/

namespace StatementLang

/-- `current` is the working directory. -/
structure FileTree where
  current : List Bytes
  directories : List (List Bytes)
  files : List (List Bytes × Bytes)
  deriving Inhabited

inductive PathProblem where
  | missing
  | notDirectory
  | invalid
  | tooLong
  deriving DecidableEq, Repr

def PathProblem.message : PathProblem → Bytes
  | .missing => utf8 "no such file or directory"
  | .notDirectory => utf8 "not a directory"
  | .invalid => utf8 "invalid argument"
  | .tooLong => utf8 "file name too long"

inductive ReadProblem where
  | unopened (path : Bytes) (problem : PathProblem)
  | directory (path : Bytes)
  deriving DecidableEq, Repr

def ReadProblem.message : ReadProblem → Bytes
  | .unopened path p => utf8 "open " ++ path ++ utf8 ": " ++ p.message
  | .directory path => utf8 "read " ++ path ++ utf8 ": is a directory"

namespace FileTree

def maxName : Nat := 255

def maxPath : Nat := 4096

def currentPath (t : FileTree) : Bytes := Path.slash :: joinWith [Path.slash] t.current

def content? (t : FileTree) (location : List Bytes) : Option Bytes := t.files.lookup location

def isDirectory (t : FileTree) (location : List Bytes) : Bool :=
  location.isPrefixOf t.current || t.directories.any location.isPrefixOf ||
    t.files.any fun f => location.isPrefixOf f.1 && location.length < f.1.length

def isPresent (t : FileTree) (location : List Bytes) : Bool :=
  (t.content? location).isSome || t.isDirectory location

def enter (t : FileTree) (here : List Bytes) (name : Bytes) : Except PathProblem (List Bytes) :=
  if !t.isDirectory here then .error .notDirectory
  else if name.isEmpty ∨ name = utf8 "." then .ok here
  else if name = utf8 ".." then .ok here.dropLast
  else if name.length > maxName then .error .tooLong
  else if t.isPresent (here ++ [name]) then .ok (here ++ [name])
  else .error .missing

def resolve (t : FileTree) (path : Bytes) : Except PathProblem (List Bytes) :=
  if path.contains 0 then .error .invalid
  else if path.isEmpty then .error .missing
  else if path.length ≥ maxPath then .error .tooLong
  else (Path.components path).foldlM t.enter (if Path.isAbsolute path then [] else t.current)

def exists? (t : FileTree) (path : Bytes) : Bool := (t.resolve path).toOption.isSome

def read (t : FileTree) (path : Bytes) : Except ReadProblem Bytes :=
  match t.resolve path with
  | .error p => .error (.unopened path p)
  | .ok location =>
    match t.content? location with
    | some content => .ok content
    | none => .error (.directory path)

def setContent (location : List Bytes) (content : Bytes) :
    List (List Bytes × Bytes) → List (List Bytes × Bytes)
  | [] => []
  | (l, c) :: rest =>
    if l = location then (l, content) :: rest else (l, c) :: setContent location content rest

/-- Replaces the content of the file at a path; a path that leads to no file changes nothing. -/
def write (t : FileTree) (path content : Bytes) : FileTree :=
  match t.resolve path with
  | .error _ => t
  | .ok location => { t with files := setContent location content t.files }

/-- The location that a path names, read as text, whether there is anything or not. -/
def locate (t : FileTree) (path : Bytes) : List Bytes :=
  (Path.components (Path.absolute t.currentPath path)).filter (!·.isEmpty)

/-- Puts a file at a path, with the directories above it. -/
def put (t : FileTree) (path content : Bytes) : FileTree :=
  let location := t.locate path
  { t with files := (location, content) :: t.files.filter (fun f => f.1 ≠ location) }

/-- Makes a directory, with those above it. -/
def makeDirectory (t : FileTree) (path : Bytes) : FileTree :=
  { t with directories := t.locate path :: t.directories }

/-- Removes a file; the directory it was in stays. -/
def remove (t : FileTree) (path : Bytes) : FileTree :=
  let location := t.locate path
  { t with
    directories := location.dropLast :: t.directories
    files := t.files.filter fun f => f.1 ≠ location }

end FileTree

end StatementLang
