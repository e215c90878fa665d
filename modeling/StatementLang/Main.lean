import StatementLang.Command.Execute

/-!
# The program

Reads the surroundings, executes the command line, writes what it wrote and stores the files it
changed. A watch goes on by looking at its file again and again.
-/

namespace StatementLang

def systemText (t : Bytes) : String := (String.fromUTF8? ⟨t.toArray⟩).getD ""

def lookAt (t : FileTree) (path : Bytes) : IO FileTree := do
  try
    let content ← IO.FS.readBinFile (systemText path)
    return t.put path content.toList
  catch e =>
    match e with
    | .noFileOrDirectory .. => return t
    | _ => return t.makeDirectory path

def mentioned (arguments : List Bytes) : List Bytes :=
  let paths := arguments.flatMap fun a =>
    match splitBefore (· == 61) a with
    | (_, []) => [a]
    | (_, _ :: value) => [a, value]
  Config.usualFiles ++ (paths.filter (!·.isEmpty)).flatMap fun p => [Path.parent p, p]

def variableNames : List String :=
  ["VERBOSE", "LOG_LEVEL", "OUTPUT", "COLOR", "WATCH_DEBOUNCE", "HISTORY_FILE", "CHECK_JOBS",
    "COMPLETION_DESCRIPTIONS"].map ("XPRES_" ++ ·)

def environment : IO (List (Bytes × Bytes)) :=
  variableNames.filterMapM fun name => do
    return (← IO.getEnv name).map fun value => (utf8 name, utf8 value)

partial def readAll (s : IO.FS.Stream) (done : ByteArray) : IO ByteArray := do
  let piece ← s.read 65536
  if piece.isEmpty then return done else readAll s (done ++ piece)

def isInteractive (arguments : List Bytes) : Bool :=
  match Command.find arguments with
  | .command .repl _ _ => true
  | _ => false

def surroundings (arguments : List Bytes) : IO World := do
  let here := utf8 (← IO.currentDir).toString
  let current := (Path.components here).filter (!·.isEmpty)
  let files ← (mentioned arguments).foldlM lookAt ⟨current, [], []⟩
  let input ← if isInteractive arguments then readAll (← IO.getStdin) .empty else pure .empty
  return ⟨files, ← environment, input.toList, false⟩

def emit (out err : Bytes) : IO Unit := do
  let stdout ← IO.getStdout
  stdout.write ⟨out.toArray⟩
  stdout.flush
  (← IO.getStderr).write ⟨err.toArray⟩

/-- Stores the files whose content is no longer the same. -/
def store (before after : FileTree) (paths : List Bytes) : IO Unit :=
  paths.forM fun p => do
    match before.read p, after.read p with
    | .ok old, .ok new =>
      if old ≠ new then IO.FS.writeBinFile (systemText p) ⟨new.toArray⟩
    | _, _ => return ()

/-- What two looks at a file tell about its content. -/
def changesOf (path : Bytes) (before after : FileTree) : List ChangeKind :=
  match before.read path, after.read path with
  | .error _, .error _ => []
  | .error _, .ok _ => [.create]
  | .ok _, .error _ => [.remove]
  | .ok old, .ok new => if old = new then [] else [.write]

/-- Goes on watching. A look at the file that shows a change is an event, and one that shows none
lets the timer expire. -/
partial def keepWatching (c : Context) (path : Bytes) (seen : FileTree) (w : WatchLoop) :
    IO Unit := do
  IO.sleep (UInt32.ofNat (max 1 (c.settings.watchDebounce.toNat / Duration.millisecond)))
  let now ← lookAt (seen.remove path) path
  let target := Context.watchTarget now path
  let changes := changesOf path seen now
  let signal := if changes.isEmpty then .expiry else .event target changes
  let (w, action) := w.step target signal
  let e := c.watchTurn now path action
  emit e.out e.err
  keepWatching c path now w

end StatementLang

open StatementLang in
def main (arguments : List String) : IO UInt32 := do
  let words := arguments.map utf8
  let w ← surroundings words
  let r := CommandLine.execute ⟨programVersion, [], utf8 "unknown unknown/unknown"⟩ w words
  emit r.out (r.notes ++ r.err)
  store w.files r.files (mentioned words)
  match CommandLine.watching? w words with
  | some (c, path) => if !r.failed then keepWatching c path w.files .idle
  | none => pure ()
  return if r.failed then 1 else 0
