
namespace TemplateTrace.Path

def parts (path : String) : List String := (path.toList.splitOn '/').map String.ofList

def ofParts (parts : List String) : String := String.intercalate "/" parts

def isAbsolute (path : String) : Bool := path.toList.head? == some '/'

def endsWithSlash (path : String) : Bool := path.toList.getLast? == some '/'

def names (path : String) : List String := (parts path).filter fun p => p ≠ "" ∧ p ≠ "."

inductive Component
  | root
  | current
  | up
  | name (s : String)
  deriving DecidableEq

def Component.ofName (s : String) : Component := if s = ".." then .up else .name s

def components (path : String) : List Component :=
  let lead :=
    if isAbsolute path then [.root]
    else if (parts path).head? = some "." then [.current]
    else []
  lead ++ (names path).map .ofName

def join (base path : String) : String :=
  if isAbsolute path then path
  else if base = "" ∨ endsWithSlash base then base ++ path
  else base ++ "/" ++ path

def fileName? (path : String) : Option String :=
  match (components path).getLast? with
  | some (.name s) => some s
  | _ => none

def splitExtension (name : String) : String × Option String :=
  let r := name.toList.reverse
  let ext := r.takeWhile (· ≠ '.')
  let stem := (r.drop (ext.length + 1)).reverse
  if ext.length = r.length ∨ stem = [] then (name, none)
  else (String.ofList stem, some (String.ofList ext.reverse))

def extension? (path : String) : Option String :=
  (fileName? path).bind fun name => (splitExtension name).2

def trimBack : List String → List String
  | [] => []
  | [p] => [p]
  | p :: rest => if p = "" ∨ p = "." then trimBack rest else p :: rest

def parent? (path : String) : Option String :=
  match (components path).reverse with
  | [] => none
  | .root :: _ => none
  | _ :: _ =>
    match trimBack (parts path).reverse with
    | [] => none
    | [_] => some ""
    | _ :: rest =>
      match trimBack rest with
      | [""] => some "/"
      | rest => some (ofParts rest.reverse)

def parentsWithin : Nat → String → List String
  | 0, _ => []
  | above + 1, path =>
    match parent? path with
    | none => []
    | some parent => parent :: parentsWithin above parent

def ancestors (path : String) : List String := path :: parentsWithin (parts path).length path

def withExtension (path ext : String) : String :=
  match fileName? path with
  | none => path
  | some name =>
    let stem := (splitExtension name).1
    let before := match trimBack (parts path).reverse with
      | [] => []
      | _ :: rest => rest.reverse
    ofParts (before ++ [stem ++ "." ++ ext])

/-- The path as seen from the root, given the current directory. Parent references stay, exactly
two leading slashes and a trailing one too. The empty path has no absolute form, and a relative one
has none where the current directory has no path. -/
def absolute? (currentDir? : Option String) (path : String) : Option String :=
  if path = "" then none
  else
    let start? :=
      if ¬ isAbsolute path then currentDir?
      else match parts path with
        | "" :: "" :: p :: _ => some (if p = "" ∧ path ≠ "//" then "/" else "//")
        | _ => some "/"
    start?.map fun start =>
      let whole := (names path).foldl join start
      if endsWithSlash path ∧ ¬ endsWithSlash whole then whole ++ "/" else whole

/-- The path with an extension after the one that its file's name may have. In that case another
one is first put at the end of the text, which may be past the name, and then takes its place. -/
def addExtension (path standIn ext : String) : String :=
  match extension? path with
  | some _ => withExtension (path ++ "." ++ standIn) ext
  | none => withExtension path ext

end TemplateTrace.Path
