import TemplateTrace.Command.Style
import TemplateTrace.Error

namespace TemplateTrace

inductive CommandError
  | invalidInput (message : String) (causes : List String)
  | readInput (path : String) (isMissing : Bool) (cause : String)
  | config (message : String) (causes : List String)
  | core (e : Error)
  | io (message cause : String)
  | render (message : String)
  deriving DecidableEq

namespace CommandError

inductive Category
  | userError
  | notFound
  | configuration
  | internal
  deriving DecidableEq

def Category.exitCode : Category → Nat
  | userError => 2
  | notFound => 3
  | configuration => 4
  | internal => 1

def message : CommandError → String
  | invalidInput message _ => s!"Invalid input: {message}"
  | readInput path _ _ => s!"Cannot read {path}"
  | config message _ => s!"Configuration error: {message}"
  | core e => e.message
  | io message _ => s!"I/O error: {message}"
  | render message => s!"Failed to render output: {message}"

def causes : CommandError → List String
  | invalidInput _ causes => causes
  | readInput _ _ cause => [cause]
  | config _ causes => causes
  | core e => [e.message, e.detail]
  | io _ cause => [cause]
  | render _ => []

def category : CommandError → Category
  | invalidInput _ _ => .userError
  | readInput _ isMissing _ => if isMissing then .notFound else .userError
  | config _ _ => .configuration
  | core e => match e.category with
    | .decode => .userError
    | .notFound => .notFound
    | .internal => .internal
  | io _ _ => .internal
  | render _ => .internal

def exitCode (e : CommandError) : Nat := e.category.exitCode

def suggestions : CommandError → List String
  | invalidInput message _ =>
    [s!"Check your input: {message}",
      "Location tables are JSON objects: \x7b\"<offset>\": \x7b\"path\": ..., \"offset\": ...\x7d\x7d",
      "Use --help for usage information"]
  | readInput path true _ =>
    [s!"'{path}' does not exist",
      "Check the path, relative paths resolve from the current directory"]
  | readInput path false _ => [s!"Check that '{path}' is a readable UTF-8 file"]
  | config message _ =>
    [s!"Configuration issue: {message}", "Run 'tplmap config path' to locate the config file",
      "Run 'tplmap config list' to see the effective values"]
  | core e => e.suggestions
  | io message _ =>
    [s!"I/O operation failed: {message}", "Check file permissions",
      "Ensure the parent directory exists"]
  | render _ => ["Retry with --output-format plain"]

def hint : String := "Use -v / --verbose for more details."

def suggestionLines (title : String) (suggestions : List String) : String :=
  if suggestions.isEmpty then ""
  else s!"\n{title}\n" ++ String.join (suggestions.map fun s => s!"  {s}\n")

def plain (verbose : Bool) (e : CommandError) : String :=
  s!"\nError: {e.message}\n" ++
    (if verbose then String.join (e.causes.map fun c => s!"  Caused by: {c}\n") else "") ++
    suggestionLines "Suggestions:" e.suggestions ++
    (if verbose then "" else s!"\n{hint}\n")

def coloured (verbose : Bool) (e : CommandError) : String :=
  "\n" ++ Style.bold (Style.red "✗") ++ " " ++ Style.bold (Style.red "Error:") ++ "\n\n" ++
    "  " ++ Style.red e.message ++ "\n" ++
    (if verbose then
      String.join (e.causes.map fun c =>
        "\n  " ++ Style.dimmed "→" ++ " " ++ Style.dimmed c ++ "\n")
    else "") ++
    suggestionLines (Style.bold (Style.yellow "Suggestions:")) e.suggestions ++
    (if verbose then "" else "\n" ++ Style.blue "ℹ" ++ " " ++ Style.dimmed hint ++ "\n")

end CommandError

end TemplateTrace
