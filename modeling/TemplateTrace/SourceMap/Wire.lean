import TemplateTrace.Error
import TemplateTrace.Json.Shape
import TemplateTrace.Json.Value
import TemplateTrace.SourceMap.Basic

/-!
Source maps as JSON. A map is written as an object of its version, its files and its lines; a
chain nests outwards, and its last link has a null parent. A text is read back only if its version
is the current one and every link names a file of the map.
-/

namespace TemplateTrace

open Json (Value Reader)
open Json.Reader (Field Record)

namespace Frame

def encode (f : Frame) : Value := .object [("file", .text f.file), ("line", .number f.line)]

structure Draft where
  file : Option String := none
  line : Option Nat := none

def record : Record Draft Frame where
  name := "Frame"
  blank := {}
  fields :=
    [⟨"file", false, (·.file.isSome), fun d => return { d with file := ← Json.Reader.text }⟩,
      ⟨"line", false, (·.line.isSome), fun d => return { d with line := ← Json.Reader.count }⟩]
  finish d :=
    match d.file, d.line with
    | none, _ => .error "file"
    | _, none => .error "line"
    | some file, some line => .ok ⟨file, line⟩

def read : Nat → Reader Frame
  | 0 => Record.read "Frame" (none : Option (Record Draft Frame))
  | _ + 1 => Record.read "Frame" (some record)

def decode (b : Bytes) : Except Json.Error Frame := Json.parse (read Json.maxDepth) b

def decodeList (b : Bytes) : Except Json.Error (List Frame) :=
  Json.parse (Json.Reader.sequence Json.maxDepth read) b

end Frame

namespace Link

def encodeChain : List Link → Value
  | [] => .null
  | l :: rest =>
    .object [("path", .number l.file), ("line", .number l.line), ("parent", encodeChain rest)]

structure Draft where
  file : Option Nat := none
  line : Option Nat := none
  parent : Option (Option (Chain Link)) := none

def record (parent : Reader (Chain Link)) : Record Draft (Chain Link) where
  name := "ChainRecord"
  blank := {}
  fields :=
    [⟨"path", false, (·.file.isSome), fun d => return { d with file := ← Json.Reader.count }⟩,
      ⟨"line", false, (·.line.isSome), fun d => return { d with line := ← Json.Reader.count }⟩,
      ⟨"parent", false, (·.parent.isSome),
        fun d => return { d with parent := some (← Json.Reader.optional parent) }⟩]
  finish d :=
    match d.file, d.line with
    | none, _ => .error "path"
    | _, none => .error "line"
    | some file, some line => .ok (.within ⟨file, line⟩ (d.parent.getD none))

def readChain : Nat → Reader (Chain Link)
  | 0 => Record.read "ChainRecord" (none : Option (Record Draft (Chain Link)))
  | depth + 1 => Record.read "ChainRecord" (some (record (readChain depth)))

def decodeChain (b : Bytes) : Except Json.Error (Chain Link) :=
  Json.parse (readChain Json.maxDepth) b

end Link

namespace SourceMap

def formatVersion : Nat := 1

def encode (m : SourceMap) : Value :=
  .object
    [("version", .number formatVersion), ("paths", .list (m.files.map .text)),
      ("lines", .object (m.lines.entries.map fun e => (toString e.1, Link.encodeChain e.2.links)))]

def serialize (m : SourceMap) : String := m.encode.compact

structure Draft where
  version : Option Nat := none
  files : Option (List String) := none
  lines : Option (Table (Chain Link)) := none

def record (depth : Nat) : Record Draft (Nat × SourceMap) where
  name := "Decoded"
  blank := {}
  fields :=
    [⟨"version", true, (·.version.isSome),
        fun d => return { d with version := ← Json.Reader.count32 }⟩,
      ⟨"paths", false, (·.files.isSome),
        fun d => return { d with files := ← Json.Reader.sequence depth fun _ => Json.Reader.text }⟩,
      ⟨"lines", false, (·.lines.isSome),
        fun d => return { d with lines := ← Json.Reader.table depth Link.readChain }⟩]
  finish d :=
    match d.files, d.lines with
    | none, _ => .error "paths"
    | _, none => .error "lines"
    | some files, some lines => .ok (d.version.getD formatVersion, ⟨files, lines⟩)

def decode (b : Bytes) : Except Json.Error (Nat × SourceMap) :=
  Json.parse (Record.read "Decoded" (some (record (Json.maxDepth - 1)))) b

def dangling? (m : SourceMap) : Option Link := m.links.find? (m.files.length ≤ ·.file)

def deserialize (b : Bytes) : Except MapError SourceMap :=
  match decode b with
  | .error e => .error (.malformed e.message)
  | .ok (version, m) =>
    if version ≠ formatVersion then .error (.unsupportedVersion version formatVersion)
    else match m.dangling? with
      | some l => .error (.danglingIndex l.file m.files.length)
      | none => .ok m

theorem dangling?_eq_none_iff (m : SourceMap) : m.dangling? = none ↔ m.Closed := by
  simp [dangling?, Closed]

end SourceMap

end TemplateTrace
