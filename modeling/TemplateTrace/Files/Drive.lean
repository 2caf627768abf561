import TemplateTrace.Files.Tree

/-!
A file tree on a disk that may fail in the middle of a write, say because it is full. By then the file has
been opened, so that it is there with some of what was to be written.
-/

namespace TemplateTrace

structure WriteFault where
  written : Nat
  cause : FileError

/-- Which writes break off: to which paths, of which texts. -/
abbrev Drive := String → String → Option WriteFault

def Drive.sound : Drive := fun _ _ => none

namespace FileTree

def breaking (drive : Drive) (path text : String) (write : Bytes → FileTree → Except FileError FileTree) :
    ExceptT FileError (StateM FileTree) Unit :=
  match drive path text with
  | none => change (write (Text.bytes text))
  | some fault => do
    change (write ((Text.bytes text).take fault.written))
    throw fault.cause

@[reducible] def onDrive (drive : Drive) : Files (StateM FileTree) :=
  { (inferInstance : Files (StateM FileTree)) with
    writeText := fun path text => breaking drive path text fun content t => t.writeBytes path content
    append := fun path text => breaking drive path text fun content t => t.append path content }

end FileTree

end TemplateTrace
