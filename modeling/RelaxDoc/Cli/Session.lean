import RelaxDoc.Cli.Arguments
import RelaxDoc.Cli.Texts
import RelaxDoc.Report.Render

/-! A run of the program: phases that load a grammar, document it, render the report and
write it, up to the first failure. -/
namespace RelaxDoc.Cli

/-- The most detailed messages that a verbosity shows. -/
def levelOf : (verbosity : Nat) → Level
  | 0 => .warn
  | 1 => .info
  | 2 => .debug
  | _ => .trace

/-- The settings that options ask for, and the location of the input. The first fault counts:
in the format, in the level of detail, in the location. -/
def Options.settings (options : Options) (input : String) :
    Except Error (Settings × Location) := do
  let format ← Format.ofName ((options.value? .format).getD "xml")
  let detail ← Detail.ofName ((options.value? .diagram).getD "full")
  let location ← Location.ofArgument input
  return ({ format, detail
            output := options.value? .output
            pretty := options.flags.contains .pretty
            timing := options.flags.contains .timing
            loader := { validate := options.flags.contains .validate } }, location)

/-- How far a session has come. -/
inductive Stage where
  | ready
  | loaded (g : Grammar)
  | documented (g : Grammar) (documentation : Documentation)
  | rendered (report : Rendered)
  | finished
  | failed (error : Error)

/-- A run of the program between two phases. -/
structure Session where
  settings : Settings
  location : Location
  tree : FileTree
  stage : Stage
  stdout : String

namespace Session

/-- The session at a stage. -/
def atStage (s : Session) (stage : Stage) : Session := { s with stage }

/-- Loads the grammar. -/
def load (s : Session) : Traced Session := do
  match ← ExceptT.run (s.settings.loader.load s.tree s.location) with
  | .ok g => return s.atStage (.loaded g)
  | .error error => return s.atStage (.failed error)

/-- Documents the grammar. -/
def document (s : Session) (g : Grammar) : Traced Session := do
  return s.atStage (.documented g (← Documentation.traced g))

/-- Renders the report. -/
def render (s : Session) (g : Grammar) (documentation : Documentation) : Traced Session := do
  Traced.sayAll (Report.renderMessages s.settings g g.elementIndex documentation)
  return s.atStage (.rendered (Report.render s.settings g g.elementIndex documentation))

/-- Writes the report. -/
def write (s : Session) : Rendered → Traced Session
  | .stdout text => pure { s with stdout := s.stdout ++ text, stage := .finished }
  | .files files => do
    match ← s.tree.writeFiles files with
    | (tree, .ok _) => return { s with tree, stage := .finished }
    | (tree, .error error) => return { s with tree, stage := .failed error }

/-- The phase that comes next, with its name. -/
def phase? (s : Session) : Option (String × Traced Session) :=
  match s.stage with
  | .ready => some ("load", s.load)
  | .loaded g => some ("document", s.document g)
  | .documented g documentation => some ("render", s.render g documentation)
  | .rendered report => some ("write", s.write report)
  | .finished | .failed _ => none

/-- The paths that the next phase reads or writes. -/
def touched (s : Session) : List String :=
  match s.stage, s.location with
  | .ready, .path path => [path]
  | .rendered (.files files), _ => files.map OutputFile.path
  | _, _ => []

/-- The error of a session that failed. -/
def error? (s : Session) : Option Error :=
  match s.stage with
  | .failed error => some error
  | _ => none

end Session

/-- A line on standard error: a message, the end of a phase, the end of all phases, or
the failure of the run. -/
inductive Notice where
  | message (m : Message)
  | phaseEnd (name : String)
  | total
  | failure (error : Error)
  deriving DecidableEq, Repr

/-- The text of a line, without the time that the end of a phase comes with. -/
def Notice.text : Notice → String
  | .message m => s!"[{m.level.name}] {m.text}"
  | .phaseEnd name => s!"[timing] {name}"
  | .total => "[timing] total"
  | .failure error => s!"[ERROR] {error.message}"

/-- What a run leaves behind. -/
structure Outcome where
  exit : Nat
  stdout : String
  notices : List Notice
  tree : FileTree

/-- The phases left in a session, at most `bound`, with the notices of each. -/
def Session.finish (limit : Level) : (bound : Nat) → Session → List Notice × Session
  | 0, s => ([], s)
  | bound + 1, s =>
    match s.phase? with
    | none => ([], s)
    | some (name, phase) =>
      let shown := (phase.messages.filter fun m => m.shownAt limit).map Notice.message
      let timed := s.settings.timing && phase.value.error?.isNone
      let (notices, last) := phase.value.finish limit bound
      (shown ++ (if timed then [.phaseEnd name] else []) ++ notices, last)

/-- The number of phases. -/
def phaseCount : Nat := 4

/-- The outcome of a session. -/
def Session.outcome (s : Session) (limit : Level) : Outcome :=
  let (notices, last) := s.finish limit phaseCount
  match last.error? with
  | some error => ⟨error.exitCode, last.stdout, notices ++ [.failure error], last.tree⟩
  | none =>
    ⟨0, last.stdout, notices ++ (if s.settings.timing then [.total] else []), last.tree⟩

/-- The session that options ask for. -/
def Options.session (options : Options) (input : String) (tree : FileTree) :
    Except Error Session := do
  let (settings, location) ← options.settings input
  return ⟨settings, location, tree, .ready, ""⟩

/-- Runs the program in a file tree. -/
def run (arguments : List String) (tree : FileTree) : Outcome :=
  match Request.ofArguments arguments with
  | .help => ⟨0, helpText, [], tree⟩
  | .version => ⟨0, versionText, [], tree⟩
  | .misuse => ⟨50, "", [], tree⟩
  | .convert options input =>
    match options.session input tree with
    | .error error => ⟨error.exitCode, "", [.failure error], tree⟩
    | .ok s => s.outcome (levelOf options.verbosity)

end RelaxDoc.Cli
