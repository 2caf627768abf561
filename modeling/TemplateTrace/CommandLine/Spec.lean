
namespace TemplateTrace.CommandLine

inductive ValueKind
  | text
  | path
  | choice (values : List String)
  | positive
  deriving DecidableEq

inductive OptionKind
  | flag
  | counter
  | value (kind : ValueKind)
  | help
  | version
  deriving DecidableEq

structure Opt where
  name : String
  short : Option Char := none
  kind : OptionKind
  setBy : Option String := none
  deriving DecidableEq

structure Positional where
  name : String
  kind : ValueKind
  deriving DecidableEq

structure CommandInfo where
  name : String
  aliases : List String := []
  options : List Opt := []
  positionals : List Positional := []
  required : List String := []
  conflicts : List (String × String) := []

inductive Command
  | mk (info : CommandInfo) (subcommands : List Command)

namespace Command

def info : Command → CommandInfo
  | mk info _ => info

def subcommands : Command → List Command
  | mk _ subcommands => subcommands

def answersTo (c : Command) (word : String) : Bool :=
  c.info.name = word || c.info.aliases.contains word

def subcommand? (c : Command) (word : String) : Option Command :=
  c.subcommands.find? (·.answersTo word)

end Command

end TemplateTrace.CommandLine
