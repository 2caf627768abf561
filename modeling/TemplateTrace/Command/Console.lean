import TemplateTrace.Command.Style
import TemplateTrace.CommandLine.Invocation
import TemplateTrace.Json.Value
import TemplateTrace.SourceMap.Wire

namespace TemplateTrace

inductive Layout
  | human
  | plain
  | json
  deriving DecidableEq

def Layout.ofFormat (isTerminal : Bool) : CommandLine.OutputFormat → Layout
  | .auto => if isTerminal then human else plain
  | .human => human
  | .plain => plain
  | .json => json

structure Console where
  layout : Layout
  isQuiet : Bool
  noColour : Bool
  deriving DecidableEq

namespace Console

def choose (isTerminal isQuiet noColour : Bool) (format : CommandLine.OutputFormat)
    (formatSetting : String) : Console :=
  let requested := if format = .auto then .ofSetting formatSetting else format
  let layout := Layout.ofFormat isTerminal requested
  ⟨layout, isQuiet, noColour || layout != .human⟩

variable (c : Console)

def data (text : String) : String := text ++ "\n"

def message (text : String) : String := if c.isQuiet then "" else data text

def signed (sign : String) (colour : String → String) (text : String) : String :=
  c.message (if c.noColour then sign ++ " " ++ text
    else Style.bold (colour sign) ++ " " ++ colour text)

def success (text : String) : String := c.signed "✓" Style.green text

def warning (text : String) : String := c.signed "⚠" Style.yellow text

def header (text : String) : String :=
  c.message (if c.noColour then text else Style.bold (Style.cyan text))

def json (v : Json.Value) : String := data v.pretty

def humanFrame (depth : Nat) (f : Frame) : String :=
  let marker := if depth = 0 then "at" else "included from"
  let place :=
    if c.noColour then f.display else Style.bold f.file ++ ":" ++ Style.yellow (toString f.line)
  data s!"  #{depth} {marker} {place}"

def humanFrames : Nat → List Frame → String
  | _, [] => ""
  | depth, f :: rest => c.humanFrame depth f ++ humanFrames (depth + 1) rest

def plainFrames (frames : List Frame) : String :=
  String.join (frames.map fun f => data f.display)

def stack (frames : List Frame) : String :=
  match c.layout with
  | .json => json (.list (frames.map Frame.encode))
  | .human => c.humanFrames 0 frames
  | .plain => plainFrames frames

def paths (paths : List String) : String :=
  match c.layout with
  | .json => json (.list (paths.map .text))
  | _ => String.join (paths.map data)

end Console

end TemplateTrace
