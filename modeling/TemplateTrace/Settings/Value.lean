import TemplateTrace.Assoc
import TemplateTrace.Number.Floating

namespace TemplateTrace

inductive Setting
  | nothing
  | bool (b : Bool)
  | integer (n : Int)
  | floating (x : Floating)
  | text (s : String)
  | list (items : List Setting)
  | table (entries : List (String × Setting))

namespace Setting

def entries : Setting → Assoc String Setting
  | table entries => entries
  | _ => []

def items : Setting → List Setting
  | list items => items
  | _ => []

def entry (key : String) (s : Setting) : Setting := (Assoc.lookup key s.entries).getD nothing

mutual

def overlay (old : Setting) : Setting → Setting
  | table new => table (overlayEntries old.entries new)
  | new => new

def overlayEntries (old : Assoc String Setting) : List (String × Setting) → Assoc String Setting
  | [] => old
  | (key, new) :: rest =>
    overlayEntries (Assoc.insert key (overlay ((Assoc.lookup key old).getD nothing) new) old) rest

end

inductive Step
  | key (name : String)
  | index (i : Int)
  deriving DecidableEq

/-- Items in which there is one at an index, and the place of that one. Items are added before
the first one where the index is negative and leads further. -/
def reach (i : Int) (items : List Setting) : List Setting × Nat :=
  if 0 ≤ i then (items ++ List.replicate (i.toNat + 1 - items.length) nothing, i.toNat)
  else if 0 ≤ items.length + i then (items, (items.length + i).toNat)
  else (List.replicate (-(items.length + i)).toNat nothing ++ items, 0)

def overlayAt : List Step → Setting → Setting → Setting
  | [], new, old => old.overlay new
  | .key name :: path, new, old =>
    table (Assoc.insert name (overlayAt path new (old.entry name)) old.entries)
  | .index i :: path, new, old =>
    let (items, place) := reach i old.items
    list (items.modify place (overlayAt path new))

def isNameChar (c : Char) : Bool := c.isAlphanum || c == '_' || c == '-'

def isBlank (c : Char) : Bool := c == ' ' || c == '\t'

def index? (s : List Char) : Option (Int × List Char) :=
  match s.dropWhile (· ≠ ']') with
  | ']' :: rest =>
    let inside := ((s.takeWhile (· ≠ ']')).dropWhile isBlank).reverse
    let number := (inside.dropWhile isBlank).reverse
    if number.head? = some '+' then none else (Digits.integer? number).map (·, rest)
  | _ => none

def stepsWithin : Nat → List Char → Option (List Step)
  | 0, _ => none
  | _, [] => some []
  | fuel + 1, '.' :: rest =>
    let name := rest.takeWhile isNameChar
    if name.isEmpty then none
    else (stepsWithin fuel (rest.dropWhile isNameChar)).map (.key (String.ofList name) :: ·)
  | fuel + 1, '[' :: rest => do
    let (i, rest) ← index? rest
    return .index i :: (← stepsWithin fuel rest)
  | _, _ => none

def pathOf (key : String) : List Step :=
  (stepsWithin (key.length + 2) ('.' :: key.toList)).getD [.key key]

def overlayAll (new : List (String × Setting)) (old : Setting) : Setting :=
  new.foldl (fun s e => overlayAt (pathOf e.1) e.2 s) old

end Setting

end TemplateTrace
