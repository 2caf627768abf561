import TemplateTrace.Command.Build
import TemplateTrace.Command.Cache
import TemplateTrace.Command.Config
import TemplateTrace.Command.Query
import TemplateTrace.Environment.File
import TemplateTrace.Settings.Sources

/-!
The program as a function of its words, its environment and the files: settings are put together,
the log file is made, and one command is carried out.

What a run tells its log file is not modelled line by line: the lines are there when the run has
ended. So a run does not see its own lines in a file that it reads, and a log file that is moved or
replaced in the course of a run is not followed. These lines, completions and the texts for help and
usage are not the program's own.
-/

namespace TemplateTrace

structure Terminal where
  out : Bool := false
  err : Bool := false

structure Host extends Terminal where
  script : CommandLine.Shell → String := fun _ => ""
  /-- The lines of the run for the log file. -/
  lines : String := ""

inductive Outcome
  | finished (code : Nat) (out err : String)
  | usage (p : CommandLine.Problem)
  | aborted
  deriving DecidableEq

inductive LogFault
  | noFileName (path : String)
  | noDirectory (dir : String) (cause : FileError)
  | noFile
  deriving DecidableEq

namespace LogFault

def outcome : LogFault → Outcome
  | noFileName path =>
    .finished 1 "" s!"Failed to initialise logging: log file '{path}' has no file name\n"
  | noDirectory dir cause =>
    .finished 1 ""
      s!"Failed to initialise logging: cannot create log directory '{dir}': {cause.message}\n"
  | noFile => .aborted

end LogFault

namespace Program

variable {m : Type → Type} [Monad m] [Files m]

def logDir (path : String) : String := ((Path.parent? path).filter (· ≠ "")).getD "."

def openLog (path : String) : ExceptT LogFault m Unit := do
  match Path.fileName? path with
  | none => throw (.noFileName path)
  | some name =>
    let dir := logDir path
    (Files.ensureDirs dir : ExceptT FileError m Unit).adapt (.noDirectory dir)
    (Files.makeFile (Path.join dir name) : ExceptT FileError m Unit).adapt fun _ => .noFile

def logPath? (s : Settings) : Option String :=
  s.logFile.bind fun path => (Path.fileName? path).map (Path.join (logDir path))

def closeLog (host : Host) (s : Settings) : m Unit := do
  match logPath? s with
  | none => return ()
  | some path => let _ ← (Files.append path host.lines : ExceptT FileError m Unit).run

def perform (host : Host) (env : Environment) (s : Settings) (c : Console) :
    CommandLine.Request → Command.CommandT m String
  | .build r => Command.build r s c
  | .stack target line => Command.stack target line s c
  | .paths target => Command.paths target s c
  | .cacheList => Command.cacheList s c
  | .cacheStatus key => Command.cacheStatus key s c
  | .cacheForget key => Command.cacheForget key s c
  | .completions shell => return host.script shell
  | .configGet key => ExceptT.mk (pure ((Command.configGet key s).mapError .error))
  | .configList => return Command.configList s c
  | .configPath => do return Console.data (← (env.configFile : m String))

def fail (terminal : Terminal) (i : CommandLine.Invocation) (e : CommandError) : Outcome :=
  let isVerbose := decide (0 < i.verbosity)
  .finished e.exitCode "" (if terminal.err then e.coloured isVerbose else e.plain isVerbose)

def outcome (terminal : Terminal) (i : CommandLine.Invocation) : Except CommandFailure String → Outcome
  | .ok out => .finished 0 out ""
  | .error (.error e) => fail terminal i e
  | .error .abort => .aborted

def dispatch (host : Host) (env : Environment) (i : CommandLine.Invocation) (s : Settings) :
    m Outcome := do
  let c := Console.choose host.out i.isQuiet (i.noColour || s.noColour) i.format s.format
  let result ← (perform host env s c i.request : Command.CommandT m String).run
  closeLog host s
  return outcome host.toTerminal i result

def start (host : Host) (env : Environment) (i : CommandLine.Invocation) : m Outcome := do
  match ← (Settings.load i.configFile env : ExceptT SettingsError m Settings).run with
  | .error e => return fail host.toTerminal i (.config e.message [])
  | .ok s =>
    let log : ExceptT LogFault m Unit := match s.logFile with
      | some path => openLog path
      | none => return ()
    match ← log.run with
    | .error fault => return fault.outcome
    | .ok () => dispatch host env i s

def version : String := "tplmap 0.1.0\n"

def run (host : Host) (env : Environment) (words : List String) : m Outcome := do
  match ← (env.withFile : m (Option Environment)) with
  | none => return .aborted
  | some env =>
    match CommandLine.parse (Assoc.lookup "NO_COLOR" env) words with
    | .error .versionWanted => return .finished 0 version ""
    | .error p => return .usage p
    | .ok i => start host env i

end Program

end TemplateTrace
