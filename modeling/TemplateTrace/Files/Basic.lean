import TemplateTrace.Text.Bytes

namespace TemplateTrace

inductive FileError
  | notFound
  | alreadyExists
  | notDirectory
  | isDirectory
  | nameTooLong
  | nulInPath
  | notText
  | other (message : String)
  deriving DecidableEq

def FileError.message : FileError → String
  | notFound => "No such file or directory (os error 2)"
  | alreadyExists => "File exists (os error 17)"
  | notDirectory => "Not a directory (os error 20)"
  | isDirectory => "Is a directory (os error 21)"
  | nameTooLong => "File name too long (os error 36)"
  | nulInPath => "file name contained an unexpected NUL byte"
  | notText => "stream did not contain valid UTF-8"
  | other message => message

class Files (m : Type → Type) where
  currentDir : m (Option String)
  accountHome : m (Option String)
  readBytes : String → ExceptT FileError m Bytes
  /-- Writes a whole file, which is created or emptied first. -/
  writeText : String → String → ExceptT FileError m Unit
  makeFile : String → ExceptT FileError m Unit
  /-- Adds a text to the end of a file that is there. -/
  append : String → String → ExceptT FileError m Unit
  makeDir : String → ExceptT FileError m Unit
  rename : String → String → ExceptT FileError m Unit
  removeFile : String → ExceptT FileError m Unit
  modified? : String → m (Option Nat)
  isFile : String → m Bool
  isDir : String → m Bool
  fileNames : String → ExceptT FileError m (List String)

def Files.readText {m : Type → Type} [Monad m] [Files m] (path : String) :
    ExceptT FileError m String := do
  match Text.ofBytes? (← Files.readBytes path) with
  | some text => return text
  | none => throw .notText

end TemplateTrace
