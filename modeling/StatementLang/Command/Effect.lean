import StatementLang.Config.Settings
import StatementLang.Files.Tree
import StatementLang.Report.Diagnostic

/-!
# What a command sees and does

A command sees files, the environment, its input and whether it has been cancelled. It writes to two
streams, may change files, and may fail.
-/

namespace StatementLang

structure World where
  files : FileTree
  environment : List (Bytes × Bytes)
  input : Bytes
  cancelled : Bool
  deriving Inhabited

structure Context where
  settings : Settings
  logger : Logger
  deriving Inhabited

namespace Context

/-- A command on its own: default settings and no log. -/
def standalone : Context := ⟨Settings.default, Logger.silent⟩

def ofSettings (s : Settings) : Context := ⟨s, s.logger⟩

def colored (c : Context) : Bool := c.settings.colored

def debug (c : Context) (message : String) (fields : List LogField) : Bytes :=
  c.logger.write ⟨Level.debug, utf8 message, fields⟩

end Context

structure Effect where
  out : Bytes
  err : Bytes
  files : FileTree
  failure : Option Failure
  deriving Inhabited

namespace Effect

def quiet (files : FileTree) : Effect := ⟨[], [], files, none⟩

def failing (files : FileTree) (f : Failure) : Effect := ⟨[], [], files, some f⟩

def printing (files : FileTree) (text : Bytes) : Effect := ⟨text, [], files, none⟩

/-- Puts what was written earlier in front. -/
def after (e : Effect) (out err : Bytes) : Effect :=
  { e with out := out ++ e.out, err := err ++ e.err }

/-- Reports a failure on the error stream and forgets it. -/
def reported (e : Effect) (colored : Bool) : Effect :=
  match e.failure with
  | none => e
  | some f => { e with err := e.err ++ line (f.diagnostic colored), failure := none }

@[simp] theorem out_after (e : Effect) (out err : Bytes) :
    (e.after out err).out = out ++ e.out := rfl

@[simp] theorem files_after (e : Effect) (out err : Bytes) :
    (e.after out err).files = e.files := rfl

@[simp] theorem failure_after (e : Effect) (out err : Bytes) :
    (e.after out err).failure = e.failure := rfl

end Effect

end StatementLang
