import TemplateTrace.Assoc
import TemplateTrace.Files.Basic
import TemplateTrace.Path
import TemplateTrace.Text.Bytes

/-!
A file tree as a value. What is there is listed under its names from the root; a path is walked
name by name from the root or the current directory, each step through a directory that exists.
Every change happens at a later time than the one before.

There are regular files and directories only: no links, devices or permissions. Names are texts, and
no file is open for longer than one operation. A current directory that is not there has no path. An
operation fails because of what is there or because of the path that it is given; a disk that is full, so
that a file is written in part, is another system.
-/

namespace TemplateTrace

inductive Node
  | file (content : Bytes) (modified : Nat)
  | dir (modified : Nat)
  deriving DecidableEq

def Node.modified : Node → Nat
  | file _ t => t
  | dir t => t

structure FileTree where
  nodes : Assoc (List String) Node
  currentDir : List String
  now : Nat
  accountHome : Option String := none

namespace FileTree

def maxName : Nat := 255

def maxPath : Nat := 4095

def node? (t : FileTree) (place : List String) : Option Node :=
  if place = [] then some (.dir 0) else Assoc.lookup place t.nodes

def isDirAt (t : FileTree) (place : List String) : Bool :=
  match t.node? place with
  | some (.dir _) => true
  | _ => false

def step (t : FileTree) (place : List String) (name : String) : Except FileError (List String) :=
  match t.node? place with
  | some (.dir _) =>
    if name = "." then .ok place
    else if name = ".." then .ok place.dropLast
    else if maxName < Text.size name then .error .nameTooLong
    else .ok (place ++ [name])
  | some (.file _ _) => .error .notDirectory
  | none => .error .notFound

def walk (t : FileTree) : List String → List String → Except FileError (List String)
  | place, [] => .ok place
  | place, name :: rest => do walk t (← t.step place name) rest

def origin (t : FileTree) (path : String) : List String :=
  if Path.isAbsolute path then [] else t.currentDir

/-- The parts that a walk takes; dots count, as steps that lead nowhere. -/
def stepsOf (path : String) : List String := (Path.parts path).filter (· ≠ "")

def checkPath (path : String) : Except FileError Unit :=
  if path.toList.contains '\x00' then .error .nulInPath
  else if path = "" then .error .notFound
  else if maxPath < Text.size path then .error .nameTooLong
  else .ok ()

def place (t : FileTree) (path : String) : Except FileError (List String) := do
  checkPath path
  t.walk (t.origin path) (stepsOf path)

def find (t : FileTree) (path : String) : Except FileError Node := do
  match t.node? (← t.place path) with
  | none => .error .notFound
  | some (.dir time) => .ok (.dir time)
  | some (.file content time) =>
    if Path.endsWithSlash path then .error .notDirectory else .ok (.file content time)

inductive Last
  | name (dir : List String) (name : String)
  | special

def placeLast (t : FileTree) (path : String) : Except FileError Last := do
  checkPath path
  match (stepsOf path).reverse with
  | [] => .ok .special
  | last :: before =>
    let dir ← t.walk (t.origin path) before.reverse
    if last = "." ∨ last = ".." then
      let _ ← t.step dir last
      return .special
    else
      let _ ← t.step dir last
      return .name dir last

def set (t : FileTree) (place : List String) (node : Nat → Node) : FileTree :=
  let parent := place.dropLast
  let nodes :=
    if (Assoc.lookup place t.nodes).isNone ∧ (Assoc.lookup parent t.nodes).isSome then
      Assoc.insert parent (.dir t.now) t.nodes
    else t.nodes
  { t with nodes := Assoc.insert place (node t.now) nodes, now := t.now + 1 }

def drop (t : FileTree) (place : List String) : FileTree :=
  let parent := place.dropLast
  let nodes := Assoc.erase place t.nodes
  let nodes :=
    if (Assoc.lookup parent nodes).isSome then Assoc.insert parent (.dir t.now) nodes else nodes
  { t with nodes := nodes, now := t.now + 1 }

def readBytes (t : FileTree) (path : String) : Except FileError Bytes := do
  match ← t.find path with
  | .dir _ => .error .isDirectory
  | .file content _ => .ok content

def writeBytes (t : FileTree) (path : String) (content : Bytes) : Except FileError FileTree := do
  match ← t.placeLast path with
  | .special => .error .isDirectory
  | .name dir name =>
    if Path.endsWithSlash path then .error .isDirectory
    else match t.node? (dir ++ [name]) with
      | some (.dir _) => .error .isDirectory
      | _ => .ok (t.set (dir ++ [name]) (.file content))

def makeFile (t : FileTree) (path : String) : Except FileError FileTree :=
  match t.find path with
  | .ok (.file _ _) => .ok t
  | _ => t.writeBytes path []

def append (t : FileTree) (path : String) (content : Bytes) : Except FileError FileTree := do
  match ← t.find path with
  | .dir _ => .error .isDirectory
  | .file old _ => if content = [] then .ok t else t.writeBytes path (old ++ content)

def makeDir (t : FileTree) (path : String) : Except FileError FileTree := do
  match ← t.placeLast path with
  | .special => .error .alreadyExists
  | .name dir name =>
    match t.node? (dir ++ [name]) with
    | some _ => .error .alreadyExists
    | none => .ok (t.set (dir ++ [name]) .dir)

def removeFile (t : FileTree) (path : String) : Except FileError FileTree := do
  match ← t.placeLast path with
  | .special => .error .isDirectory
  | .name dir name =>
    match t.node? (dir ++ [name]) with
    | none => .error .notFound
    | some (.dir _) => .error .isDirectory
    | some (.file _ _) =>
      if Path.endsWithSlash path then .error .notDirectory else .ok (t.drop (dir ++ [name]))

/-- Moves a regular file, with its time, over what is there, unless that is a directory. -/
def rename (t : FileTree) (source target : String) : Except FileError FileTree := do
  match ← t.find source, ← t.placeLast source, ← t.placeLast target with
  | .file content time, .name dir name, .name dir' name' =>
    match t.node? (dir' ++ [name']) with
    | some (.dir _) => .error .isDirectory
    | _ => .ok ((t.drop (dir ++ [name])).set (dir' ++ [name']) fun _ => .file content time)
  | .dir _, _, _ => .error .isDirectory
  | _, _, _ => .error .alreadyExists

def isFile (t : FileTree) (path : String) : Bool :=
  match t.find path with
  | .ok (.file _ _) => true
  | _ => false

def isDir (t : FileTree) (path : String) : Bool :=
  match t.find path with
  | .ok (.dir _) => true
  | _ => false

def modified? (t : FileTree) (path : String) : Option Nat :=
  match t.find path with
  | .ok node => some node.modified
  | .error _ => none

def filesIn (t : FileTree) (dir : List String) : List String :=
  t.nodes.filterMap fun e =>
    match e.2 with
    | .file _ _ => if e.1.dropLast = dir then e.1.getLast? else none
    | .dir _ => none

def fileNames (t : FileTree) (path : String) : Except FileError (List String) := do
  match ← t.find path with
  | .file _ _ => .error .notDirectory
  | .dir _ => return t.filesIn (← t.place path)

def touch (t : FileTree) (path : String) (time : Nat) : Except FileError FileTree := do
  let place ← t.place path
  match ← t.find path with
  | .file content _ => .ok { t with nodes := Assoc.insert place (.file content time) t.nodes }
  | .dir _ => .ok { t with nodes := Assoc.insert place (.dir time) t.nodes }

def removeAll (t : FileTree) (path : String) : Except FileError FileTree := do
  let _ ← t.find path
  let place ← t.place path
  let t := t.drop place
  .ok { t with nodes := t.nodes.filter fun e => e.1.take place.length ≠ place }

def listing (t : FileTree) (dir : List String) : List String :=
  let paths := t.nodes.filterMap fun e =>
    if e.1.take dir.length = dir ∧ dir.length < e.1.length then
      let path := Path.ofParts (e.1.drop dir.length)
      match e.2 with
      | .file _ _ => some path
      | .dir _ => some (path ++ "/")
    else none
  paths.mergeSort fun a b => decide (a ≤ b)

def ofDir (dir : List String) (now : Nat) : FileTree :=
  ⟨(List.range dir.length).map fun i => (dir.take (i + 1), .dir now), dir, now + 1, none⟩

def currentPath (t : FileTree) : String := "/" ++ Path.ofParts t.currentDir

/-- A current directory that was removed has no path. -/
def currentPath? (t : FileTree) : Option String :=
  if t.isDirAt t.currentDir then some t.currentPath else none

def change (f : FileTree → Except FileError FileTree) : ExceptT FileError (StateM FileTree) Unit :=
  fun t =>
    match f t with
    | .ok t' => (.ok (), t')
    | .error e => (.error e, t)

def query {α : Type} (f : FileTree → Except FileError α) : ExceptT FileError (StateM FileTree) α :=
  fun t => (f t, t)

instance : Files (StateM FileTree) where
  currentDir := fun t => (t.currentPath?, t)
  accountHome := fun t => (t.accountHome, t)
  readBytes path := query (·.readBytes path)
  writeText path text := change (·.writeBytes path (Text.bytes text))
  makeFile path := change (·.makeFile path)
  append path text := change (·.append path (Text.bytes text))
  makeDir path := change (·.makeDir path)
  rename source target := change (·.rename source target)
  removeFile path := change (·.removeFile path)
  modified? path := fun t => (t.modified? path, t)
  isFile path := fun t => (t.isFile path, t)
  isDir path := fun t => (t.isDir path, t)
  fileNames path := query (·.fileNames path)

end FileTree

end TemplateTrace
