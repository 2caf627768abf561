import TemplateTrace.Settings.Basic
import TemplateTrace.Toml.Quoted

namespace TemplateTrace.Settings

def tomlSection (name : String) (fields : List (Option (String × String))) : String :=
  s!"[{name}]\n" ++
    String.join ((fields.filterMap id).map fun f => s!"{f.1} = {f.2}\n")

def toToml (s : Settings) : String :=
  let text (key value : String) : Option (String × String) := some (key, Toml.quoted value)
  let text? (key : String) (value : Option String) : Option (String × String) :=
    value.map fun v => (key, Toml.quoted v)
  "\n".intercalate
    [tomlSection "templates" [text "root" s.root, text? "extension" s.extension],
      tomlSection "cache" [text "dir" s.cacheDir],
      tomlSection "output" [some ("no_color", toString s.noColour), text "format" s.format],
      tomlSection "logging" [text? "file" s.logFile]]

def get? (s : Settings) (key : String) : Option String :=
  if key = "templates.root" then some s.root
  else if key = "templates.extension" then some (s.extension.getD "")
  else if key = "cache.dir" then some s.cacheDir
  else if key = "output.no_color" then some (toString s.noColour)
  else if key = "output.format" then some s.format
  else if key = "logging.file" then some (s.logFile.getD "")
  else none

end TemplateTrace.Settings
