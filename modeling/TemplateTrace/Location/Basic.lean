import TemplateTrace.Chain
import TemplateTrace.Text.Line

namespace TemplateTrace

structure Site where
  path : String
  offset : Nat
  deriving DecidableEq

namespace Site

def display (s : Site) : String := s.path ++ "@" ++ toString s.offset

end Site

abbrev Location := Chain Site

structure Source where
  filename : String
  content : String
  deriving DecidableEq

namespace Source

def lineAt (s : Source) (offset : Nat) : Nat := Text.lineAt (Text.bytes s.content) offset

def lastLine (s : Source) : Nat := Text.lastLine (Text.bytes s.content)

theorem lineAt_le_lastLine (s : Source) (offset : Nat) : s.lineAt offset ≤ s.lastLine :=
  Text.lineAt_le_lastLine _ _

end Source

end TemplateTrace
