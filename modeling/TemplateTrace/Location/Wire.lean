import TemplateTrace.Json.Shape
import TemplateTrace.Json.Value
import TemplateTrace.Location.Basic

namespace TemplateTrace

open Json (Value Reader)
open Json.Reader (Field Record)

namespace Location

def encodeSites (s : Site) : List Site → Value
  | [] => .object [("path", .text s.path), ("offset", .number s.offset)]
  | t :: rest =>
    .object [("path", .text s.path), ("offset", .number s.offset), ("parent", encodeSites t rest)]

def encode (l : Location) : Value := encodeSites l.innermost l.enclosing

def encodeTable (t : Table Location) : Value :=
  .object (t.entries.map fun e => (toString e.1, encode e.2))

structure Draft where
  path : Option String := none
  offset : Option Nat := none
  parent : Option (Option Location) := none

def record (parent : Reader Location) : Record Draft Location where
  name := "Location"
  blank := {}
  fields :=
    [⟨"path", false, (·.path.isSome), fun d => return { d with path := ← Json.Reader.text }⟩,
      ⟨"offset", false, (·.offset.isSome), fun d => return { d with offset := ← Json.Reader.count }⟩,
      ⟨"parent", true, (·.parent.isSome),
        fun d => return { d with parent := some (← Json.Reader.optional parent) }⟩]
  finish d :=
    match d.path, d.offset with
    | none, _ => .error "path"
    | _, none => .error "offset"
    | some path, some offset => .ok (.within ⟨path, offset⟩ (d.parent.getD none))

def read : Nat → Reader Location
  | 0 => Record.read "Location" (none : Option (Record Draft Location))
  | depth + 1 => Record.read "Location" (some (record (read depth)))

def decode (b : Bytes) : Except Json.Error Location := Json.parse (read Json.maxDepth) b

def decodeTable (b : Bytes) : Except Json.Error (Table Location) :=
  Json.parse (Json.Reader.table Json.maxDepth read) b

end Location

namespace Source

structure Draft where
  filename : Option String := none
  content : Option String := none

def record : Record Draft Source where
  name := "Source"
  blank := {}
  fields :=
    [⟨"filename", false, (·.filename.isSome),
        fun d => return { d with filename := ← Json.Reader.text }⟩,
      ⟨"content", false, (·.content.isSome),
        fun d => return { d with content := ← Json.Reader.text }⟩]
  finish d :=
    match d.filename, d.content with
    | none, _ => .error "filename"
    | _, none => .error "content"
    | some filename, some content => .ok ⟨filename, content⟩

def encode (s : Source) : Value :=
  .object [("filename", .text s.filename), ("content", .text s.content)]

def decode (b : Bytes) : Except Json.Error Source :=
  Json.parse (Record.read "Source" (some record)) b

end Source

end TemplateTrace
