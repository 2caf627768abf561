
namespace TemplateTrace

inductive MapError
  | malformed (reason : String)
  | unsupportedVersion (found expected : Nat)
  | danglingIndex (index length : Nat)
  | unwritable (reason : String)
  deriving DecidableEq

inductive Category
  | decode
  | notFound
  | internal
  deriving DecidableEq

namespace MapError

def message : MapError → String
  | malformed reason => s!"Malformed source map: {reason}"
  | unsupportedVersion found expected =>
    s!"Unsupported source map version {found} (expected {expected})"
  | danglingIndex index length =>
    s!"Chain record references path #{index} but only {length} paths are recorded"
  | unwritable reason => s!"Failed to encode source map: {reason}"

def category : MapError → Category
  | unwritable _ => .internal
  | _ => .decode

def isDecode (e : MapError) : Bool := e.category = .decode

def suggestions : MapError → List String
  | malformed reason =>
    ["The cached source map could not be read", s!"Details: {reason}",
      "Rebuild it: tplmap build"]
  | unsupportedVersion found expected =>
    [s!"Map was written by a different tplmap release (v{found} format, this build reads v{expected})",
      "Clear the cache and rebuild the map"]
  | danglingIndex _ _ =>
    ["The cached source map is internally inconsistent", "Delete the cache entry and rebuild it"]
  | unwritable _ => ["This appears to be a bug, please report it"]

end MapError

inductive Error
  | map (e : MapError)
  | templateLoad (path reason : String)
  | notStored (key : String)
  | store (key reason : String)
  | locked
  deriving DecidableEq

namespace Error

def detail : Error → String
  | map e => e.message
  | templateLoad path reason => s!"Failed to load template '{path}': {reason}"
  | notStored key => s!"No source map stored for '{key}'"
  | store key reason => s!"Map store error for '{key}': {reason}"
  | locked => "Map store lock poisoned"

def message : Error → String
  | map e => s!"Source map error: {e.message}"
  | e => e.detail

def category : Error → Category
  | map e => e.category
  | templateLoad _ _ => .notFound
  | notStored _ => .notFound
  | store _ _ => .internal
  | locked => .internal

def isDecode : Error → Bool
  | map e => e.isDecode
  | _ => false

def isLoad : Error → Bool
  | templateLoad _ _ => true
  | _ => false

def suggestions : Error → List String
  | map e => e.suggestions
  | templateLoad path _ =>
    [s!"Template '{path}' could not be loaded",
      "Check the templates root directory and file extension",
      "Missing includes are fatal: fix the include or add the file"]
  | notStored key => [s!"Nothing cached under '{key}'", "Build the map first: tplmap build"]
  | store _ _ => ["Check that the cache directory exists and is writable"]
  | locked => ["The map store is locked", "Try again in a moment"]

end Error

inductive Failure
  | error (e : Error)
  | abort
  deriving DecidableEq

end TemplateTrace
