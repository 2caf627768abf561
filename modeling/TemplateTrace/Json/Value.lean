
namespace TemplateTrace.Json

inductive Value
  | null
  | bool (b : Bool)
  | number (n : Nat)
  | text (s : String)
  | list (items : List Value)
  | object (members : List (String × Value))

def quotedChar (c : Char) : String :=
  match c with
  | '"' => "\\\""
  | '\\' => "\\\\"
  | '\x08' => "\\b"
  | '\x0c' => "\\f"
  | '\n' => "\\n"
  | '\r' => "\\r"
  | '\t' => "\\t"
  | c =>
    if c.toNat < 0x20 then
      "\\u00" ++ String.ofList [Nat.digitChar (c.toNat / 16), Nat.digitChar (c.toNat % 16)]
    else String.singleton c

def quoted (s : String) : String := "\"" ++ String.join (s.toList.map quotedChar) ++ "\""

namespace Value

mutual

def compact : Value → String
  | null => "null"
  | bool b => toString b
  | number n => toString n
  | text s => quoted s
  | list items => "[" ++ compactItems items ++ "]"
  | object members => "\x7b" ++ compactMembers members ++ "\x7d"

def compactItems : List Value → String
  | [] => ""
  | [v] => v.compact
  | v :: rest => v.compact ++ "," ++ compactItems rest

def compactMembers : List (String × Value) → String
  | [] => ""
  | [(k, v)] => quoted k ++ ":" ++ v.compact
  | (k, v) :: rest => quoted k ++ ":" ++ v.compact ++ "," ++ compactMembers rest

end

def newLine (level : Nat) : String := "\n" ++ String.ofList (List.replicate (2 * level) ' ')

mutual

def prettyAt (level : Nat) : Value → String
  | null => "null"
  | bool b => toString b
  | number n => toString n
  | text s => quoted s
  | list [] => "[]"
  | list items => "[" ++ prettyItems (level + 1) items ++ newLine level ++ "]"
  | object [] => "\x7b\x7d"
  | object members => "\x7b" ++ prettyMembers (level + 1) members ++ newLine level ++ "\x7d"

def prettyItems (level : Nat) : List Value → String
  | [] => ""
  | [v] => newLine level ++ v.prettyAt level
  | v :: rest => newLine level ++ v.prettyAt level ++ "," ++ prettyItems level rest

def prettyMembers (level : Nat) : List (String × Value) → String
  | [] => ""
  | [(k, v)] => newLine level ++ quoted k ++ ": " ++ v.prettyAt level
  | (k, v) :: rest =>
    newLine level ++ quoted k ++ ": " ++ v.prettyAt level ++ "," ++ prettyMembers level rest

end

def pretty (v : Value) : String := v.prettyAt 0

end Value

end TemplateTrace.Json
