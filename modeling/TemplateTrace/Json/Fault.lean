import TemplateTrace.Text.Line
import TemplateTrace.Text.Quoted

/-!
What can be wrong with a JSON text, and where. A fault keeps the bytes that were left when
reading stopped, from which its place in the whole text follows. A fault about a whole record is
unplaced until the record has been closed.
-/

namespace TemplateTrace.Json

inductive Wanted
  | count
  | count32
  | text
  | sequence
  | table
  | record (name : String)
  deriving DecidableEq

def Wanted.describe : Wanted → String
  | count => "usize"
  | count32 => "u32"
  | text => "a string"
  | sequence => "a sequence"
  | table => "a map"
  | record name => "struct " ++ name

inductive Found
  | null
  | bool (b : Bool)
  | integer (n : Int)
  | fraction (decimal : String)
  | text (s : String)
  | sequence
  | object
  deriving DecidableEq

def Found.describe : Found → String
  | null => "null"
  | bool b => "boolean `" ++ toString b ++ "`"
  | integer n => "integer `" ++ toString n ++ "`"
  | fraction d => "floating point `" ++ d ++ "`"
  | text s => "string " ++ Text.quoted s
  | sequence => "sequence"
  | object => "map"

inductive Cause
  | endInValue
  | endInText
  | endInList
  | endInObject
  | noValue
  | unknownWord
  | invalidNumber
  | numberOutOfRange
  | controlCharacter
  | invalidEscape
  | loneSurrogate
  | endOfSurrogatePair
  | invalidCodePoint
  | trailingComma
  | trailingCharacters
  | noListComma
  | noObjectComma
  | noColon
  | noQuote
  | keyNotText
  | keyNotNumber
  | tooDeep
  | wrongType (found : Found) (wanted : Wanted)
  | wrongValue (n : Int) (wanted : Wanted)
  | missingField (name : String)
  | duplicateField (name : String)
  | tooShort (length : Nat) (record : String) (fields : Nat)
  deriving DecidableEq

def Cause.describe : Cause → String
  | endInValue => "EOF while parsing a value"
  | endInText => "EOF while parsing a string"
  | endInList => "EOF while parsing a list"
  | endInObject => "EOF while parsing an object"
  | noValue => "expected value"
  | unknownWord => "expected ident"
  | invalidNumber => "invalid number"
  | numberOutOfRange => "number out of range"
  | controlCharacter => "control character (\\u0000-\\u001F) found while parsing a string"
  | invalidEscape => "invalid escape"
  | loneSurrogate => "lone leading surrogate in hex escape"
  | endOfSurrogatePair => "unexpected end of hex escape"
  | invalidCodePoint => "invalid unicode code point"
  | trailingComma => "trailing comma"
  | trailingCharacters => "trailing characters"
  | noListComma => "expected `,` or `]`"
  | noObjectComma => "expected `,` or `\x7d`"
  | noColon => "expected `:`"
  | noQuote => "expected `\"`"
  | keyNotText => "key must be a string"
  | keyNotNumber => "invalid value: expected key to be a number in quotes"
  | tooDeep => "recursion limit exceeded"
  | wrongType found wanted => "invalid type: " ++ found.describe ++ ", expected " ++ wanted.describe
  | wrongValue n wanted =>
    "invalid value: integer `" ++ toString n ++ "`, expected " ++ wanted.describe
  | missingField name => "missing field `" ++ name ++ "`"
  | duplicateField name => "duplicate field `" ++ name ++ "`"
  | tooShort length record fields =>
    "invalid length " ++ toString length ++ ", expected struct " ++ record ++ " with " ++
      toString fields ++ " elements"

/-- Where a fault lies, relative to the bytes that are left: at their start, one byte further, a
number of columns back, or not known yet. -/
inductive Place
  | here
  | ahead
  | back (columns : Nat)
  | unplaced
  deriving DecidableEq

structure Fault where
  cause : Cause
  place : Place
  rest : Bytes
  deriving DecidableEq

structure Error where
  cause : Cause
  line : Nat
  column : Nat
  deriving DecidableEq

def Error.message (e : Error) : String :=
  e.cause.describe ++ " at line " ++ toString e.line ++ " column " ++ toString e.column

def column (b : Bytes) : Nat := (b.reverse.takeWhile (· ≠ Text.lineFeed)).length

def Fault.locate (f : Fault) (whole : Bytes) : Error :=
  let read := whole.length - f.rest.length
  match f.place with
  | .ahead =>
    let seen := whole.take (read + 1)
    ⟨f.cause, Text.lastLine seen, column seen⟩
  | .back n =>
    let seen := whole.take read
    ⟨f.cause, Text.lastLine seen, column seen - n⟩
  | _ =>
    let seen := whole.take read
    ⟨f.cause, Text.lastLine seen, column seen⟩

end TemplateTrace.Json
