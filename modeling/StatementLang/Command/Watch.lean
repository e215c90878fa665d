import StatementLang.Command.Sources

/-!
# Watching a file

A watched file is run once and then again some time after every change. Changes are collected: each
one arms the timer anew, and the program runs when the timer expires.
-/

namespace StatementLang

inductive ChangeKind where
  | create
  | write
  | remove
  | rename
  | attributes
  deriving DecidableEq, Repr, Inhabited

/-- The changes after which a program is run again. -/
def ChangeKind.isContent (k : ChangeKind) : Bool := k = .create || k = .write

/-- What a watch waits for. An event may report several changes of one path. -/
inductive WatchSignal where
  | event (path : Bytes) (changes : List ChangeKind)
  | expiry
  | fault (reason : Bytes)
  | cancel
  deriving DecidableEq, Repr, Inhabited

inductive WatchAction where
  | wait
  | rerun
  | warn (reason : Bytes)
  | stop
  deriving DecidableEq, Repr, Inhabited

/-- `created` says that there is a timer, `armed` that its expiry is waited for. -/
structure WatchLoop where
  created : Bool
  armed : Bool
  deriving DecidableEq, Repr, Inhabited

namespace WatchLoop

def idle : WatchLoop := ⟨false, false⟩

/-- A change of the target's content. -/
def concerns (target path : Bytes) (changes : List ChangeKind) : Bool :=
  Path.clean path = target && changes.any ChangeKind.isContent

/-- One turn of the loop; `target` is the cleaned absolute path of the watched file. An expiry that
is not waited for does nothing. -/
def step (target : Bytes) (w : WatchLoop) : WatchSignal → WatchLoop × WatchAction
  | .event path changes =>
    if concerns target path changes then (⟨true, true⟩, .wait) else (w, .wait)
  | .expiry => if w.armed then ({ w with armed := false }, .rerun) else (w, .wait)
  | .fault reason => (w, .warn reason)
  | .cancel => (w, .stop)

end WatchLoop

namespace Context

/-- Runs the watched file; a failure is reported and does not end the watch. -/
def watchedRun (c : Context) (files : FileTree) (path : Bytes) : Effect :=
  (c.runFile files path).reported c.colored

def watchedRerun (c : Context) (files : FileTree) (path : Bytes) : Effect :=
  (c.watchedRun files path).after []
    (line (Style.dim.render c.colored (utf8 "--- change detected: " ++ Path.base path)))

def watchTarget (files : FileTree) (path : Bytes) : Bytes := Path.absolute files.currentPath path

/-- Starts a watch: the directory of the file must be there, the file need not. -/
def startWatch (c : Context) (files : FileTree) (path : Bytes) : Effect :=
  let directory := Path.parent (watchTarget files path)
  match files.resolve directory with
  | .error p =>
    .failing files (.labelled (utf8 "failed to watch " ++ directory) (.plain p.message))
  | .ok _ =>
    let e := c.watchedRun files path
    let record : LogRecord := ⟨Level.info, utf8 "watching for changes", [.text "file" path]⟩
    { e with err := e.err ++ c.logger.write record }

def watchTurn (c : Context) (files : FileTree) (path : Bytes) : WatchAction → Effect
  | .wait => .quiet files
  | .rerun => c.watchedRerun files path
  | .warn reason =>
    (Effect.quiet files).after []
      (c.logger.write ⟨Level.warn, utf8 "watcher error", [.text "error" reason]⟩)
  | .stop => .quiet files

end Context

end StatementLang
