import FlipperBlocks.Number.Text
import FlipperBlocks.Text.Shown
import FlipperBlocks.Json.Value

/-! What can be wrong with a document, and how it is worded.

A fault is either in the text itself or a value of a kind that its place does not take. -/
namespace FlipperBlocks.Json

/-- What was found where something else was expected. -/
inductive Found where
  | null
  | truth (value : Bool)
  | integer (value : Int)
  | float (value : Binary64)
  | text (contents : String)
  | sequence
  | map

def Found.describe : Found → String
  | null => "null"
  | truth value => "boolean `" ++ (if value then "true" else "false") ++ "`"
  | integer value => "integer `" ++ toString value ++ "`"
  | float value => "floating point `" ++ value.shown ++ "`"
  | text contents => "string " ++ Text.shown contents
  | sequence => "sequence"
  | map => "map"

/-- A value as something found. -/
def found : Json → Found
  | null => .null
  | truth value => .truth value
  | integer value => .integer value
  | float value => .float value
  | text contents => .text contents
  | list _ => .sequence
  | object _ => .map

inductive Fault where
  | endOfList
  | endOfObject
  | endOfText
  | endOfValue
  | expectedColon
  | expectedListEnd
  | expectedObjectEnd
  | expectedWord
  | expectedValue
  | invalidEscape
  | invalidNumber
  | outOfRange
  | invalidCodePoint
  | controlCharacter
  | keyNotText
  | loneSurrogate
  | missingSurrogate
  | trailingComma
  | trailingCharacters
  | wrongKind (found : Found) (expected : String)
  | missing (name : String)
  | duplicate (name : String)
  | tooShort (length : Nat) (expected : String)
  | tooLong (length : Nat)

def Fault.message : Fault → String
  | endOfList => "EOF while parsing a list"
  | endOfObject => "EOF while parsing an object"
  | endOfText => "EOF while parsing a string"
  | endOfValue => "EOF while parsing a value"
  | expectedColon => "expected `:`"
  | expectedListEnd => "expected `,` or `]`"
  | expectedObjectEnd => "expected `,` or `\x7d`"
  | expectedWord => "expected ident"
  | expectedValue => "expected value"
  | invalidEscape => "invalid escape"
  | invalidNumber => "invalid number"
  | outOfRange => "number out of range"
  | invalidCodePoint => "invalid unicode code point"
  | controlCharacter => "control character (\\u0000-\\u001F) found while parsing a string"
  | keyNotText => "key must be a string"
  | loneSurrogate => "lone leading surrogate in hex escape"
  | missingSurrogate => "unexpected end of hex escape"
  | trailingComma => "trailing comma"
  | trailingCharacters => "trailing characters"
  | wrongKind found expected => "invalid type: " ++ found.describe ++ ", expected " ++ expected
  | missing name => "missing field `" ++ name ++ "`"
  | duplicate name => "duplicate field `" ++ name ++ "`"
  | tooShort length expected =>
    "invalid length " ++ toString length ++ ", expected " ++ expected
  | tooLong length =>
    "invalid length " ++ toString length ++ ", expected fewer elements in array"

end FlipperBlocks.Json
