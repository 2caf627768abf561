import TemplateTrace.Command.Basic
import TemplateTrace.Command.Console
import TemplateTrace.Settings.Printer

namespace TemplateTrace.Command

def configGet (key : String) (s : Settings) : Except CommandError String :=
  match s.get? key with
  | some value => .ok (Console.data value)
  | none => .error (.config s!"Unknown config key: '{key}'" [])

def configList (s : Settings) (c : Console) : String :=
  c.header "Current Configuration:" ++ s.toToml

end TemplateTrace.Command
