import TemplateTrace.Assoc

namespace TemplateTrace

abbrev Environment := Assoc String String

namespace Environment

/-- The value that is found under a name. Each variable is the text of its name, an equals sign and
its value, and what counts is how that text begins; so a name with an equals sign leads into the
value of a variable. -/
def find? (name : String) (env : Environment) : Option String :=
  let sought := name.toList ++ ['=']
  env.findSome? fun (key, value) =>
    let entry := key.toList ++ '=' :: value.toList
    if sought.isPrefixOf entry then some (String.ofList (entry.drop sought.length)) else none

end Environment

end TemplateTrace
