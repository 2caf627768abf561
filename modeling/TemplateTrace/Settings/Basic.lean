import TemplateTrace.Settings.Value

namespace TemplateTrace

structure Settings where
  root : String := "."
  extension : Option String := none
  cacheDir : String := ".tplmap-cache"
  noColour : Bool := false
  format : String := "auto"
  logFile : Option String := none
  deriving DecidableEq

inductive SettingKind
  | text
  | bool
  | fields
  deriving DecidableEq

def SettingKind.message : SettingKind → String
  | text => "a string"
  | bool => "a boolean"
  | fields => "a table"

structure Mismatch where
  key : String
  wanted : SettingKind
  deriving DecidableEq

def Mismatch.message (e : Mismatch) : String :=
  s!"invalid type: expected {e.wanted.message} for key `{e.key}`"

namespace Setting

def text? : Setting → Option String
  | text s => some s
  | bool b => some (toString b)
  | integer n => some (toString n)
  | floating x => some x.text
  | _ => none

def bool? : Setting → Option Bool
  | bool b => some b
  | integer n => some (n ≠ 0)
  | floating x => some !x.isZero
  | text s =>
    let word := Text.lower s
    if ["1", "true", "on", "yes"].contains word then some true
    else if ["0", "false", "off", "no"].contains word then some false
    else none
  | _ => none

def field? (section? : Option Setting) (name : String) (place : Nat) : Option (Option Setting) :=
  match section? with
  | none => some none
  | some (table entries) => some (Assoc.lookup name entries)
  | some (list items) => some items[place]?
  | some _ => none

def read {α : Type} (s : Setting) (place : Nat) (sectionName name : String) (kind : SettingKind)
    (read? : Setting → Option α) (default : α) : Except Mismatch α :=
  match field? (Assoc.lookup sectionName s.entries) name place with
  | none => .error ⟨sectionName, .fields⟩
  | some none => .ok default
  | some (some v) =>
    match read? v with
    | some a => .ok a
    | none => .error ⟨sectionName ++ "." ++ name, kind⟩

def optional {α : Type} (read? : Setting → Option α) : Setting → Option (Option α)
  | nothing => some none
  | v => (read? v).map some

end Setting

namespace Settings

def defaults : Settings := {}

def ofSetting (s : Setting) : Except Mismatch Settings := do
  let path (place : Nat) (sectionName name : String) (default : String) : Except Mismatch String :=
    s.read place sectionName name .text Setting.text? default
  let path? (place : Nat) (sectionName name : String) : Except Mismatch (Option String) :=
    s.read place sectionName name .text (Setting.optional Setting.text?) none
  return {
    root := ← path 0 "templates" "root" defaults.root
    extension := ← path? 1 "templates" "extension"
    cacheDir := ← path 0 "cache" "dir" defaults.cacheDir
    noColour := ← s.read 0 "output" "no_color" .bool Setting.bool? defaults.noColour
    format := ← path 1 "output" "format" defaults.format
    logFile := ← path? 0 "logging" "file" }

end Settings

end TemplateTrace
