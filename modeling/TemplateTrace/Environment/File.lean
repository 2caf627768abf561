import TemplateTrace.Environment.Assignment
import TemplateTrace.Environment.Basic
import TemplateTrace.Files.Basic
import TemplateTrace.Path
import TemplateTrace.Text.Bytes

/-!
Files of assignments to variables that are not set yet. A quoted value may span lines of the file.
Reading ends at the first line that is malformed; what was read before it counts.
-/

namespace TemplateTrace

namespace Assignment

inductive Span
  | closed
  | blank
  | comment
  | escape
  | quoted (q : Quote)
  | quotedEscape (q : Quote)
  deriving DecidableEq

namespace Span

def outside (c : Char) : Span :=
  if c = '\\' then escape
  else if c = '"' then quoted .double
  else if c = '\'' then quoted .single
  else closed

def close (q : Quote) : Char := match q with
  | .single => '\''
  | .double => '"'

def step : Span → Char → Span
  | closed, c => if Text.isBlank c ∧ c ≠ '\n' ∧ c ≠ '\r' then blank else outside c
  | blank, c => if c = '#' then comment else outside c
  | comment, _ => comment
  | escape, _ => closed
  | quoted q, c => if c = '\\' then quotedEscape q else if c = close q then closed else quoted q
  | quotedEscape q, _ => quoted q

def scan : Span → List Char → List Char × Span
  | s, [] => ([], s)
  | s, c :: rest =>
    match s.step c with
    | comment => ([], comment)
    | next =>
      let (kept, last) := scan next rest
      (c :: kept, last)

end Span

def dropNewline (s : List Char) : List Char :=
  match s.reverse with
  | '\n' :: '\r' :: rest => rest.reverse
  | '\n' :: rest => rest.reverse
  | _ => s

def joined (soFar : List Char) (span : Span) : List (Option String) → List (Option (List Char))
  | [] => if span = .closed then [] else [none]
  | none :: _ => [none]
  | some line :: rest =>
    let whole := soFar ++ line.toList
    if (Text.trimStart whole).head? = some '#' then some [] :: joined [] .closed rest
    else
      let (kept, last) := Span.scan span line.toList
      if last = .comment then some (soFar ++ kept) :: joined [] .closed rest
      else if last = .closed then some (dropNewline whole) :: joined [] .closed rest
      else joined whole last rest

def cutLines : Bytes → List Bytes
  | [] => []
  | b :: rest =>
    if b = byte '\n' then [b] :: cutLines rest
    else match cutLines rest with
      | [] => [[b]]
      | line :: lines => (b :: line) :: lines

def linesOf (content : Bytes) : List (Option (List Char)) :=
  let content := match content with
    | 0xEF :: 0xBB :: 0xBF :: rest => rest
    | content => content
  joined [] .closed ((cutLines content).map Text.ofBytes?)

end Assignment

namespace Environment

open Assignment

def meaning (env given : Environment) (name : String) : String :=
  ((env.find? name).orElse fun _ => Assoc.lookup name given).getD ""

/-- Carries out lines up to the first one that is malformed. No variable can hold a null
character, so a line that asks for one breaks the program off. -/
def assignLines (env given : Environment) : List (Option (List Char)) → Option Environment
  | [] => some env
  | none :: _ => some env
  | some line :: rest =>
    match line? (meaning env given) line with
    | none => some env
    | some .blank => assignLines env given rest
    | some (.assigns name value) =>
      if Assoc.contains name env then assignLines env (Assoc.insert name value given) rest
      else if value.toList.contains '\x00' then none
      else assignLines (Assoc.insert name value env) (Assoc.insert name value given) rest

variable {m : Type → Type} [Monad m] [Files m]

def fileName : String := ".env"

def firstFile? : List String → m (Option String)
  | [] => return none
  | path :: rest => do if ← Files.isFile path then return some path else firstFile? rest

def placesFrom (currentDir? : Option String) : List String :=
  (currentDir?.elim [] Path.ancestors).map (Path.join · fileName)

def withFile (env : Environment) : m (Option Environment) := do
  match ← firstFile? (placesFrom (← (Files.currentDir : m (Option String)))) with
  | none => return some env
  | some path =>
    match ← (Files.readBytes path : ExceptT FileError m Bytes).run with
    | .error _ => return some env
    | .ok content => return assignLines env [] (linesOf content)

end Environment

end TemplateTrace
