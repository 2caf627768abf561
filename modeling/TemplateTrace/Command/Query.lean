import TemplateTrace.Command.Basic
import TemplateTrace.Command.Console

namespace TemplateTrace.Command

variable {m : Type → Type} [Monad m] [Files m]

def openMap (target : CommandLine.MapTarget) (s : Settings) : CommandT m SourceMap := do
  if target.isCached then traced ((← (service s : m (TraceService m))).load target.map)
  else
    match SourceMap.deserialize (Text.bytes (← readInput target.map)) with
    | .ok map => return map
    | .error e => throw (.error (.core (.map e)))

def stack (target : CommandLine.MapTarget) (line : Nat) (s : Settings) (c : Console) :
    CommandT m String := do
  return c.stack ((← openMap target s).stack line)

def paths (target : CommandLine.MapTarget) (s : Settings) (c : Console) : CommandT m String := do
  return c.paths (← openMap target s).paths

end TemplateTrace.Command
