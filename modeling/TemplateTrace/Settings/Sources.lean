import TemplateTrace.Environment.Basic
import TemplateTrace.Files.Basic
import TemplateTrace.Path
import TemplateTrace.Settings.Basic
import TemplateTrace.Toml.Document

/-!
Where settings come from: the defaults, over them a file, and over that the environment. A file
that is asked for has to be there; the one in the usual place need not.
-/

namespace TemplateTrace

namespace Environment

def settingMark : List Char := "tplmap_".toList

def dotted : List Char → List Char
  | '_' :: '_' :: rest => '.' :: dotted rest
  | c :: rest => c :: dotted rest
  | [] => []

def settingKey? (name : String) : Option String :=
  let lower := (Text.lower name).toList
  if settingMark.isPrefixOf lower then some (String.ofList (dotted (lower.drop settingMark.length)))
  else none

/-- The value that the text of a variable stands for: a truth value in any case of letters, a
whole number of 64 bits, another number, or else the text. -/
def settingOf (text : String) : Setting :=
  let word := Text.lower text
  if word = "true" then .bool true
  else if word = "false" then .bool false
  else match Digits.integer? text.toList with
    | some n => .integer n
    | none => match Floating.ofText? text with
      | some x => .floating x
      | none => .text text

def settings (env : Environment) : Assoc String Setting :=
  env.foldl (fun t e => match settingKey? e.1 with
    | some key => Assoc.insert key (settingOf e.2) t
    | none => t) []

def home? (env : Environment) (accountHome : Option String) : Option String :=
  ((Assoc.lookup "HOME" env).filter (· ≠ "")).orElse fun _ => accountHome

def configDir (env : Environment) (home : String) : String :=
  ((Assoc.lookup "XDG_CONFIG_HOME" env).filter Path.isAbsolute).getD (Path.join home ".config")

/-- The file of settings in the usual place. Without a home it is one in the current directory, even
where the directory for settings is given. -/
def configFileOf (env : Environment) (accountHome : Option String) : String :=
  match env.home? accountHome with
  | some home => Path.join (Path.join (env.configDir home) "tplmap") "config.toml"
  | none => ".tplmap.toml"

def configFile {m : Type → Type} [Monad m] [Files m] (env : Environment) : m String := do
  return env.configFileOf (← (Files.accountHome : m (Option String)))

end Environment

inductive SettingsError
  | missing (path : String)
  | unreadable (path : String) (cause : FileError)
  | malformed (message : String)
  | invalid (e : Mismatch)
  deriving DecidableEq

namespace SettingsError

def message : SettingsError → String
  | missing path =>
    s!"failed to read configuration sources: configuration file \"{path}\" not found"
  | unreadable _ cause => s!"failed to read configuration sources: {cause.message}"
  | malformed message => s!"failed to read configuration sources: {message}"
  | invalid e => s!"invalid configuration: {e.message}"

end SettingsError

namespace Settings

def readToml (content : Bytes) : Except SettingsError (List (String × Setting)) :=
  let text := Text.dropMark (Text.ofBytesRepaired content)
  match Toml.read text with
  | .ok entries => .ok entries
  | .error fault => .error (.malformed (fault.message text))

def ofSources (file : List (String × Setting)) (env : Environment) :
    Except SettingsError Settings :=
  (ofSetting (Setting.overlayAll env.settings (Setting.overlayAll file (.table [])))).mapError .invalid

variable {m : Type → Type} [Monad m] [Files m]

def standIn : String := "placeholder"

def fileAt? (place : String) : m (Option String) := do
  if ← Files.isFile place then return some place
  else
    let other := Path.addExtension place standIn "toml"
    if ← Files.isFile other then return some other else return none

def placeOf? (currentDir? : Option String) (path : String) : Option String :=
  if Path.isAbsolute path then some path else currentDir?.map (Path.join · path)

def readFile (path : String) : ExceptT SettingsError m (List (String × Setting)) := do
  match placeOf? (← (Files.currentDir : m (Option String))) path with
  | none => throw (.unreadable path .notFound)
  | some place =>
    match ← (fileAt? place : m (Option String)) with
    | none => throw (.missing path)
    | some file =>
      match ← (Files.readBytes file : ExceptT FileError m Bytes).run with
      | .error e => throw (.unreadable file e)
      | .ok content => ExceptT.mk (pure (readToml content))

def readFileIfThere (path : String) : ExceptT SettingsError m (List (String × Setting)) :=
  tryCatch (readFile path) fun e =>
    match e with
    | .malformed _ => throw e
    | _ => return []

def load (file? : Option String) (env : Environment) : ExceptT SettingsError m Settings := do
  let entries ← match file? with
    | some path => readFile path
    | none => do readFileIfThere (← (env.configFile : m String))
  ExceptT.mk (pure (ofSources entries env))

end Settings

end TemplateTrace
