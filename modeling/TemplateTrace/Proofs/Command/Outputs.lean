import TemplateTrace.Proofs.Command.BuildThenStack

namespace TemplateTrace

namespace Command

variable {t u : FileTree} {r : CommandLine.BuildRequest} {s : Settings} {c : Console} {file text : String}
  {target : CommandLine.MapTarget} {content : String} {table : Table Location} {map : SourceMap}

end Command

namespace Program

open Command (mapPath Built)
open SourceMap (maxLinks)

inductive Query
  | stack (line : Nat)
  | paths

namespace Query

def request (target : CommandLine.MapTarget) : Query → CommandLine.Request
  | stack line => .stack target line
  | paths => .paths target

def print (c : Console) (map : SourceMap) : Query → String
  | stack line => c.stack (map.stack line)
  | paths => c.paths map.paths

end Query

variable {env : Environment} {words : List String} {t u v start : FileTree}
  {j : CommandLine.Invocation} {s : Settings} {r : CommandLine.BuildRequest}
  {target : CommandLine.MapTarget} {q : Query}
  {content text file key : String} {table : Table Location} {map : SourceMap}

def answered (terminal : Terminal) (j : CommandLine.Invocation) (s : Settings) (q : Query) (text : String) :
    Outcome :=
  match SourceMap.deserialize (Text.bytes text) with
  | .ok map => .finished 0 (q.print (console terminal j s) map) ""
  | .error e => fail terminal j (.core (.map e))

end Program

end TemplateTrace
