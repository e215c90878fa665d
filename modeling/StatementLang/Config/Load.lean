import StatementLang.Config.Decode
import StatementLang.Files.Tree

/-!
# Loading the configuration

The configuration file is the one that was asked for, or the first of the usual ones that is
there. Settings are decoded from all layers and then checked.
-/

namespace StatementLang

inductive ConfigError where
  | unreadable (file : Bytes) (problem : ReadProblem)
  | malformed (file : Bytes) (error : Yaml.Error)
  | undecodable (misfits : List (Bytes × Misfit))
  | invalid (problem : Settings.Problem)

def ConfigError.message : ConfigError → Bytes
  | .unreadable file p => utf8 "error reading config file " ++ file ++ utf8 ": " ++ p.message
  | .malformed file e => utf8 "error reading config file " ++ file ++ utf8 ": " ++ e.message
  | .undecodable misfits =>
    utf8 "unable to decode config: decoding failed due to the following error(s):\n\n" ++
      joinWith [newline] (misfits.map fun (key, m) => utf8 "'" ++ key ++ utf8 "' " ++ m.message)
  | .invalid p => utf8 "invalid configuration: " ++ p.message

namespace Config

def usualFiles : List Bytes := ["xpres.yaml", "xpres.yml"].map utf8

/-- The configuration file, or the empty text for none. -/
def findFile (files : FileTree) (asked : Bytes) : Bytes :=
  if asked.isEmpty then (usualFiles.find? files.exists?).getD [] else asked

def fileLayer (files : FileTree) (file : Bytes) : Except ConfigError Layer :=
  if file.isEmpty then .ok []
  else match files.read (Path.clean file) with
    | .error p => .error (.unreadable file p)
    | .ok content =>
      match Yaml.load content with
      | .error e => .error (.malformed file e)
      | .ok entries => .ok (.ofEntries entries)

def settings (l : Layers) : Except ConfigError Settings :=
  match l.decode with
  | .error misfits => .error (.undecodable misfits)
  | .ok s =>
    match s.validate with
    | .error p => .error (.invalid p)
    | .ok () => .ok s

/-- Loads the settings from the file that was asked for, the environment and the flags. -/
def load (files : FileTree) (environment : List (Bytes × Bytes)) (asked : Bytes) (flags : Options) :
    Except ConfigError Settings :=
  match fileLayer files (findFile files asked) with
  | .error e => .error e
  | .ok file => settings ⟨file, .ofEnvironment environment, .ofOptions flags⟩

end Config

end StatementLang
