import TemplateTrace.CommandLine.Parse

/-!
The commands of the program: their description and what is asked for by a command line. Options
that hold for all commands may be given at any level; of two values the innermost one counts, and
one from the command line counts more than one from the environment.
-/

namespace TemplateTrace.CommandLine

inductive OutputFormat
  | auto
  | human
  | plain
  | json
  deriving DecidableEq

namespace OutputFormat

def ofWord? (s : String) : Option OutputFormat :=
  if s = "auto" then some auto
  else if s = "human" then some human
  else if s = "plain" then some plain
  else if s = "json" then some json
  else none

def ofSetting (s : String) : OutputFormat := (ofWord? (Text.lower (Text.trim s))).getD auto

end OutputFormat

structure BuildRequest where
  content : String
  locations : String
  root : Option String
  extension : Option String
  out : Option String
  key : Option String
  deriving DecidableEq

structure MapTarget where
  map : String
  isCached : Bool
  deriving DecidableEq

inductive Shell
  | bash
  | zsh
  | fish
  | powerShell
  | elvish
  deriving DecidableEq

namespace Shell

def words : List (String × Shell) :=
  [("bash", bash), ("zsh", zsh), ("fish", fish), ("power-shell", powerShell), ("elvish", elvish)]

end Shell

inductive Request
  | build (r : BuildRequest)
  | stack (target : MapTarget) (line : Nat)
  | paths (target : MapTarget)
  | cacheList
  | cacheStatus (key : String)
  | cacheForget (key : String)
  | completions (shell : Shell)
  | configGet (key : String)
  | configList
  | configPath
  deriving DecidableEq

structure Invocation where
  verbosity : Nat
  isQuiet : Bool
  noColour : Bool
  configFile : Option String
  format : OutputFormat
  request : Request
  deriving DecidableEq

def globalOptions : List Opt :=
  [⟨"verbose", some 'v', .counter, none⟩, ⟨"quiet", some 'q', .flag, none⟩,
    ⟨"no-color", none, .flag, some "NO_COLOR"⟩, ⟨"config", some 'c', .value .path, none⟩,
    ⟨"output-format", none, .value (.choice ["auto", "human", "plain", "json"]), none⟩,
    ⟨"help", some 'h', .help, none⟩]

def command (info : CommandInfo) (subcommands : List Command) : Command :=
  .mk { info with
    options := globalOptions ++ info.options
    conflicts := ("quiet", "verbose") :: info.conflicts } subcommands

def mapOptions : List Opt := [{ name := "cached", kind := .flag }]

def buildCommand : Command :=
  command
    { name := "build"
      aliases := ["b"]
      options :=
        [⟨"content", none, .value .path, none⟩, ⟨"locations", none, .value .path, none⟩,
          ⟨"root", none, .value .path, none⟩, ⟨"ext", none, .value .text, none⟩,
          ⟨"out", some 'o', .value .path, none⟩, ⟨"key", none, .value .text, none⟩]
      required := ["content", "locations"]
      conflicts := [("out", "key")] } []

def cacheCommand : Command :=
  command { name := "cache" }
    [command { name := "list", aliases := ["ls"] } [],
      command { name := "status", positionals := [⟨"key", .text⟩] } [],
      command { name := "forget", aliases := ["rm"], positionals := [⟨"key", .text⟩] } []]

def configCommand : Command :=
  command { name := "config" }
    [command { name := "get", positionals := [⟨"key", .text⟩] } [],
      command { name := "list" } [], command { name := "path" } []]

def program : Command :=
  command { name := "tplmap", options := [⟨"version", some 'V', .version, none⟩] }
    [buildCommand,
      command
        { name := "stack"
          aliases := ["s"]
          options := mapOptions
          positionals := [⟨"map", .text⟩, ⟨"line", .positive⟩] } [],
      command
        { name := "paths", options := mapOptions, positionals := [⟨"map", .text⟩] } [],
      cacheCommand,
      command
        { name := "completions"
          positionals := [⟨"shell", .choice (Shell.words.map Prod.fst)⟩] } [],
      configCommand]

def isTrueWord (s : String) : Bool :=
  !(["", "n", "no", "f", "false", "off", "0"].contains (Text.lower s))

def text? (m : Matches) (name : String) : Option String :=
  match m.lookup name with
  | some (_, .text s) => some s
  | _ => none

def flag (m : Matches) (name : String) : Bool :=
  match m.lookup name with
  | some (_, .flag on) => on
  | _ => false

def number (m : Matches) (name : String) : Nat :=
  match m.lookup name with
  | some (_, .number n) => n
  | some (_, .count n) => n
  | _ => 0

def text (m : Matches) (name : String) : String := (text? m name).getD ""

def mapTarget (m : Matches) : MapTarget := ⟨text m "map", flag m "cached"⟩

def globalValue (levels : List Matches) (name : String) : Matches :=
  let given := levels.filterMap fun m => (m.lookup name).map fun v => (name, v)
  let own := given.filter fun e => e.2.1 = .commandLine
  ((if own.isEmpty then given else own).getLast?).toList

def request? (names : List String) (m : Matches) : Option Request :=
  match names with
  | [_, "build"] =>
    some (.build ⟨text m "content", text m "locations", text? m "root", text? m "ext",
      text? m "out", text? m "key"⟩)
  | [_, "stack"] => some (.stack (mapTarget m) (number m "line"))
  | [_, "paths"] => some (.paths (mapTarget m))
  | [_, "cache", "list"] => some .cacheList
  | [_, "cache", "status"] => some (.cacheStatus (text m "key"))
  | [_, "cache", "forget"] => some (.cacheForget (text m "key"))
  | [_, "completions"] => (Shell.words.lookup (text m "shell")).map .completions
  | [_, "config", "get"] => some (.configGet (text m "key"))
  | [_, "config", "list"] => some .configList
  | [_, "config", "path"] => some .configPath
  | _ => none

def parse (noColour? : Option String) (words : List String) : Except Problem Invocation := do
  let surroundings : Surroundings :=
    ⟨fun name => if name = "NO_COLOR" then noColour? else none, isTrueWord⟩
  let levels ← read surroundings { command := program } words
  let all := levels.map Prod.snd
  let inner := all.getLast?.getD []
  match request? (levels.map Prod.fst) inner with
  | none => .error .missingSubcommand
  | some request =>
    let global := globalValue all
    return {
      verbosity := number (global "verbose") "verbose"
      isQuiet := flag (global "quiet") "quiet"
      noColour := flag (global "no-color") "no-color"
      configFile := text? (global "config") "config"
      format := ((text? (global "output-format") "output-format").bind OutputFormat.ofWord?).getD
        .auto
      request := request }

end TemplateTrace.CommandLine
