import StatementLang.Duration
import StatementLang.Log.Line
import StatementLang.Report.Choice

/-!
# Settings

The settings of a run of the program, and when they are fit for use.
-/

namespace StatementLang

/-- `watchDebounce` is a duration in nanoseconds; zero `checkJobs` leaves the number to the
program. -/
structure Settings where
  verbose : Bool
  logLevel : Bytes
  output : Bytes
  color : Bytes
  watchDebounce : Int
  historyFile : Bytes
  checkJobs : Int
  deriving DecidableEq, Repr, Inhabited

namespace Settings

def default : Settings where
  verbose := false
  logLevel := utf8 "info"
  output := utf8 "auto"
  color := utf8 "auto"
  watchDebounce := 100 * Duration.millisecond
  historyFile := utf8 ".xpres_history"
  checkJobs := 0

inductive Problem where
  | logLevel (text : Bytes) (problem : Level.Problem)
  | negativeDebounce (duration : Int)
  | negativeJobs (jobs : Int)
  deriving DecidableEq, Repr

def Problem.message : Problem → Bytes
  | .logLevel text p => utf8 "invalid log_level " ++ quote text ++ utf8 ": " ++ Level.complaint text p
  | .negativeDebounce d => utf8 "watch_debounce must not be negative, got " ++ Duration.text d
  | .negativeJobs n => utf8 "check_jobs must not be negative, got " ++ intText n

/-- The effective log level. A verbose run logs everything whatever the level says. -/
def level (s : Settings) : Except Problem Int :=
  if s.verbose then .ok Level.debug
  else if s.logLevel.isEmpty then .ok Level.info
  else match Level.parse s.logLevel with
    | .ok l => .ok l
    | .error p => .error (.logLevel s.logLevel p)

def validate (s : Settings) : Except Problem Unit :=
  match s.level with
  | .error p => .error p
  | .ok _ =>
    if s.watchDebounce < 0 then .error (.negativeDebounce s.watchDebounce)
    else if s.checkJobs < 0 then .error (.negativeJobs s.checkJobs)
    else .ok ()

/-- A logger at the effective level; a level that cannot be read counts as the default one. -/
def logger (s : Settings) : Logger :=
  match s.level with
  | .ok l => ⟨l, []⟩
  | .error _ => ⟨Level.info, []⟩

def colored (s : Settings) : Bool := s.color = utf8 "always"

end Settings

end StatementLang
