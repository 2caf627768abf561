import TemplateTrace.Settings.Value
import TemplateTrace.Toml.Reader

/-!
Tables of a TOML document while it is read. A table is made by its own header, or on the way to
something in it by a longer header or by a key with points. A header may later make its own a table
that was made on the way by headers; a key with points adds only to tables made on the way, whatever
made them. No key is assigned twice.
-/

namespace TemplateTrace.Toml

inductive Tree
  | value (v : Setting)
  | table (isImplicit isDotted : Bool) (entries : List (String × Tree))
  | tables (elements : List (List (String × Tree)))

namespace Tree

abbrev Entries := Assoc String Tree

mutual

def setting : Tree → Setting
  | value v => v
  | table _ _ entries => .table (settings entries)
  | tables elements => .list (tableSettings elements)

def settings : List (String × Tree) → List (String × Setting)
  | [] => []
  | (key, t) :: rest => (key, t.setting) :: settings rest

def tableSettings : List (List (String × Tree)) → List Setting
  | [] => []
  | entries :: rest => .table (settings entries) :: tableSettings rest

end

/-- Changes the table that a path leads to, given whether it was only made on the way. Tables that
are not there are made. A path of a key goes only through tables made on the way; of a list of
tables, the last one is meant. -/
def within (byKey : Bool) (change : Bool → Entries → Except Reason Entries) :
    Bool → List String → Entries → Except Reason Entries
  | isImplicit, [], t => change isImplicit t
  | _, name :: path, t => do
    match Assoc.lookup name t with
    | none => return Assoc.insert name (table true byKey (← within byKey change true path [])) t
    | some (value _) => throw .notTable
    | some (table isImplicit isDotted entries) =>
      if byKey ∧ ¬ isImplicit then throw .duplicateKey
      else
        return Assoc.insert name
          (table isImplicit isDotted (← within byKey change isImplicit path entries)) t
    | some (tables elements) =>
      let last ← within byKey change false path (elements.getLast?.getD [])
      return Assoc.insert name (tables (elements.dropLast ++ [last])) t

def atLast (byKey : Bool) (names : List String) (change : Bool → String → Entries → Except Reason Entries)
    (t : Entries) : Except Reason Entries :=
  match names.getLast? with
  | none => .error .unexpected
  | some name => within byKey (fun isImplicit => change isImplicit name) false names.dropLast t

def assign (names : List String) (v : Setting) (t : Entries) : Except Reason Entries :=
  atLast true names (fun isImplicit name t =>
    if (1 < names.length ∧ ¬ isImplicit) ∨ Assoc.contains name t then .error .duplicateKey
    else .ok (Assoc.insert name (value v) t)) t

def openTable (names : List String) (t : Entries) : Except Reason Entries :=
  atLast false names (fun _ name t =>
    match Assoc.lookup name t with
    | none => .ok (Assoc.insert name (table false false []) t)
    | some (table true false entries) => .ok (Assoc.insert name (table false false entries) t)
    | some _ => .error .duplicateKey) t

def openElement (names : List String) (t : Entries) : Except Reason Entries :=
  atLast false names (fun _ name t =>
    match Assoc.lookup name t with
    | none => .ok (Assoc.insert name (tables [[]]) t)
    | some (tables elements) => .ok (Assoc.insert name (tables (elements ++ [[]])) t)
    | some _ => .error .duplicateKey) t

def assignIn (header names : List String) (v : Setting) (t : Entries) : Except Reason Entries :=
  within false (fun _ => assign names v) false header t

end Tree

end TemplateTrace.Toml
