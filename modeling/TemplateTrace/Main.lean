import TemplateTrace.Program

/-!
The program itself: files, variables and outputs of the system it runs on. Lines for the log file,
completions and the texts for help and usage are left empty.
-/

namespace TemplateTrace.Platform

def faultOf (e : IO.Error) : FileError :=
  let ofCode (given : UInt32) : FileError :=
    let code := if given ≤ 0x7FFFFFFF then given else 0 - given
    if code = 2 then .notFound
    else if code = 17 then .alreadyExists
    else if code = 20 then .notDirectory
    else if code = 21 then .isDirectory
    else if code = 36 then .nameTooLong
    else .other (toString e)
  match e with
  | .noFileOrDirectory _ code _ => ofCode code
  | .alreadyExists _ code _ => ofCode code
  | .inappropriateType _ code _ => ofCode code
  | .invalidArgument _ code _ => ofCode code
  | .resourceExhausted _ code _ => ofCode code
  | .noSuchThing _ code _ => ofCode code
  | .otherError code _ => ofCode code
  | e => .other (toString e)

def onPath {α : Type} (path : String) (act : IO α) : ExceptT FileError IO α := do
  if path.toList.contains '\x00' then throw .nulInPath
  match ← (act.toBaseIO : IO (Except IO.Error α)) with
  | .ok a => return a
  | .error e => throw (faultOf e)

def about? (path : String) : IO (Option IO.FS.Metadata) := do
  match ← (onPath path (System.mkFilePath [path]).metadata).run with
  | .ok data => return some data
  | .error _ => return none

def hasType (type : IO.FS.FileType) (path : String) : IO Bool := do
  return match ← about? path with
    | some data => data.type == type
    | none => false

def time (t : IO.FS.SystemTime) : Nat := (t.sec * 1000000000 + t.nsec.toNat).toNat

def textOf? (path : String) : IO (Option String) := do
  match ← (onPath path (IO.FS.readBinFile path)).run with
  | .ok content => return Text.ofBytes? content.data.toList
  | .error _ => return none

def currentDir? : IO (Option String) := do
  match ← (IO.currentDir.toBaseIO : IO (Except IO.Error _)) with
  | .ok path => return some path.toString
  | .error _ => return none

def accountHome? : IO (Option String) := do
  let status := (← textOf? "/proc/self/status").getD ""
  let accounts := (← textOf? "/etc/passwd").getD ""
  let user? := (status.splitOn "\nUid:\t")[1]?.bind fun rest => (rest.splitOn "\t").head?
  return (accounts.splitOn "\n").findSome? fun line =>
    match line.splitOn ":" with
    | [_, _, user, _, _, home, _] => if some user = user? ∧ home ≠ "" then some home else none
    | _ => none

instance : Files IO where
  currentDir := currentDir?
  accountHome := accountHome?
  readBytes path := onPath path do return (← IO.FS.readBinFile path).data.toList
  writeText path text := onPath path (IO.FS.writeFile path text)
  makeFile path := onPath path do let _ ← IO.FS.Handle.mk path .append
  append path text := do
    if (← (hasType .dir path : IO Bool)) then throw .isDirectory
    if !(← (hasType .file path : IO Bool)) then throw .notFound
    onPath path do (← IO.FS.Handle.mk path .append).putStr text
  makeDir path := onPath path (IO.FS.createDir path)
  rename source target := do
    onPath target (pure ())
    onPath source (IO.FS.rename source target)
  removeFile path := onPath path (IO.FS.removeFile path)
  modified? path := do return (← about? path).map fun data => time data.modified
  isFile path := hasType .file path
  isDir path := hasType .dir path
  fileNames path := do
    let entries ← onPath path (System.mkFilePath [path]).readDir
    let names := entries.toList.map (·.fileName)
    names.filterM fun name => (hasType .file (Path.join path name) : IO Bool)

def environment : IO Environment := do
  match ← (onPath "" (IO.FS.readBinFile "/proc/self/environ")).run with
  | .error _ => return []
  | .ok content =>
    let entries := (content.data.toList.splitOn 0).filterMap Text.ofBytes?
    return entries.filterMap fun entry =>
      let name := entry.toList.takeWhile (· ≠ '=')
      let rest := entry.toList.drop name.length
      if name.isEmpty ∨ rest.isEmpty then none
      else some (String.ofList name, String.ofList rest.tail)

def report : Outcome → IO UInt32
  | .finished code out err => do
    IO.print out
    IO.eprint err
    return code.toUInt32
  | .usage p => return p.exitCode.toUInt32
  | .aborted => do
    IO.eprintln "tplmap: internal failure"
    return 101

end TemplateTrace.Platform

open TemplateTrace in
def main (words : List String) : IO UInt32 := do
  let host : Host := { out := ← (← IO.getStdout).isTty, err := ← (← IO.getStderr).isTty }
  Platform.report (← Program.run host (← Platform.environment) words)
