import TemplateTrace.Command.Basic
import TemplateTrace.Command.Console
import TemplateTrace.Location.Wire

namespace TemplateTrace.Command

variable {m : Type → Type} [Monad m] [Files m]

def readTable (text : String) : CommandT m (Table Location) :=
  match Location.decodeTable (Text.bytes text) with
  | .ok table => return table
  | .error e =>
    throw (.error (.invalidInput s!"malformed location table: {e.message}" [e.message]))

def buildSettings (r : CommandLine.BuildRequest) (s : Settings) : Settings :=
  { s with
    root := r.root.getD s.root
    extension := r.extension.orElse fun _ => s.extension }

def counts (map : SourceMap) : String :=
  s!"{map.length} lines, {map.paths.length} templates"

def deliver (c : Console) (map : SourceMap) : Option String → CommandT m String
  | none => return Console.data map.serialize
  | some out => do
    (Files.writeText out map.serialize : ExceptT FileError m Unit).adapt fun e =>
      .error (.io s!"failed to write {out}" e.message)
    return c.success s!"Wrote {out} ({counts map})"

def build (r : CommandLine.BuildRequest) (s : Settings) (c : Console) : CommandT m String := do
  let content ← readInput r.content
  let table ← readTable (← readInput r.locations)
  let s := buildSettings r s
  match r.key with
  | some key =>
    let map ← traced ((← (service s : m (TraceService m))).record key content table)
    return c.success
      s!"Recorded {map.length} lines from {map.paths.length} templates under '{key}'"
  | none =>
    let loader ← (templates s : m DirectoryLoader)
    deliver c (← traced (SourceMap.calculate loader.load content table)) r.out

end TemplateTrace.Command
