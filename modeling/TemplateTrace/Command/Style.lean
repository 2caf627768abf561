
namespace TemplateTrace.Style

def escape (code text close : String) : String :=
  "\x1b[" ++ code ++ "m" ++ text ++ "\x1b[" ++ close ++ "m"

def red (s : String) : String := escape "31" s "39"

def green (s : String) : String := escape "32" s "39"

def yellow (s : String) : String := escape "33" s "39"

def blue (s : String) : String := escape "34" s "39"

def cyan (s : String) : String := escape "36" s "39"

def bold (s : String) : String := escape "1" s "0"

def dimmed (s : String) : String := escape "2" s "0"

end TemplateTrace.Style
