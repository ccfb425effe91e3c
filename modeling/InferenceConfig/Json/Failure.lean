import InferenceConfig.Text.Quoted

/-!
# Failures of the JSON Reader

The JSON reader works on the bytes that are left. A failure says what is wrong and how many
bytes are left behind the place that is reported: all that have not been consumed, or one
less when the byte at fault has only been looked at. From the whole input the place becomes
a line and a column.

## Main definitions

* `Json.Shape`, `Json.Wanted`, `Json.Reason` — what was found, what was wanted, what is
  wrong;
* `Json.Failure`, `Json.here`, `Json.peeked` — a failure within the bytes that are left;
* `Json.Error` — a failure with its line and column in the whole input.
-/

namespace InferenceConfig

namespace Json

/-- What a value is, as far as a message about a value of a wrong type says it. Numbers
that are no integers come as the text that they are shown with. -/
inductive Shape where
  /-- The literal `null`. -/
  | null
  /-- A truth value. -/
  | boolean (value : Bool)
  /-- An integer of at most 64 bits. -/
  | integer (value : Int)
  /-- Any other number, with its text. -/
  | floating (text : String)
  /-- A string. -/
  | string (value : String)
  /-- An array. -/
  | sequence
  /-- An object. -/
  | map
  deriving DecidableEq, Repr

/-- The wording of a shape. -/
def Shape.message : Shape → String
  | .null => "null"
  | .boolean true => "boolean `true`"
  | .boolean false => "boolean `false`"
  | .integer value => "integer `" ++ toString value ++ "`"
  | .floating text => "floating point `" ++ text ++ "`"
  | .string value => "string " ++ Quoted.ofString value
  | .sequence => "sequence"
  | .map => "map"

/-- What the reader wants a value to be. -/
inductive Wanted where
  /-- A message of the type with this title. -/
  | struct (title : String)
  /-- A list. -/
  | sequence
  /-- A string. -/
  | string
  deriving DecidableEq, Repr

/-- The wording of what is wanted. -/
def Wanted.message : Wanted → String
  | .struct title => "struct " ++ title
  | .sequence => "a sequence"
  | .string => "a string"

/-- What can be wrong with a JSON document. -/
inductive Reason where
  /-- A value has a wrong type. -/
  | invalidType (found : Shape) (wanted : Wanted)
  /-- A field occurs twice. -/
  | duplicateField (name : String)
  /-- The input ends where a value is due. -/
  | eofValue
  /-- The input ends inside an array. -/
  | eofList
  /-- The input ends inside an object. -/
  | eofObject
  /-- The input ends inside a string. -/
  | eofString
  /-- A key is not followed by a colon. -/
  | expectedColon
  /-- An element is followed by neither a comma nor the end of the array. -/
  | expectedListEnd
  /-- A member is followed by neither a comma nor the end of the object. -/
  | expectedObjectEnd
  /-- A literal is misspelt. -/
  | expectedIdent
  /-- No value starts here. -/
  | expectedValue
  /-- A backslash is followed by something that is no escape. -/
  | invalidEscape
  /-- A number is misspelt. -/
  | invalidNumber
  /-- A number is too large. -/
  | numberOutOfRange
  /-- A string is not UTF-8. -/
  | invalidCodePoint
  /-- A string holds a raw control character. -/
  | controlCharacter
  /-- A key is not a string. -/
  | keyNotString
  /-- A surrogate stands alone. -/
  | loneSurrogate
  /-- A leading surrogate is not followed by an escape. -/
  | unexpectedEndOfEscape
  /-- A comma is followed by the end of the array or object. -/
  | trailingComma
  /-- Something follows the end. -/
  | trailingCharacters
  deriving DecidableEq, Repr

/-- The wording of a reason. -/
def Reason.message : Reason → String
  | .invalidType found wanted =>
    "invalid type: " ++ found.message ++ ", expected " ++ wanted.message
  | .duplicateField name => "duplicate field `" ++ name ++ "`"
  | .eofValue => "EOF while parsing a value"
  | .eofList => "EOF while parsing a list"
  | .eofObject => "EOF while parsing an object"
  | .eofString => "EOF while parsing a string"
  | .expectedColon => "expected `:`"
  | .expectedListEnd => "expected `,` or `]`"
  | .expectedObjectEnd => "expected `,` or `\x7d`"
  | .expectedIdent => "expected ident"
  | .expectedValue => "expected value"
  | .invalidEscape => "invalid escape"
  | .invalidNumber => "invalid number"
  | .numberOutOfRange => "number out of range"
  | .invalidCodePoint => "invalid unicode code point"
  | .controlCharacter =>
    "control character (\\u0000-\\u001F) found while parsing a string"
  | .keyNotString => "key must be a string"
  | .loneSurrogate => "lone leading surrogate in hex escape"
  | .unexpectedEndOfEscape => "unexpected end of hex escape"
  | .trailingComma => "trailing comma"
  | .trailingCharacters => "trailing characters"

/-- What is wrong, and how many bytes are left behind the place. -/
structure Failure where
  /-- What is wrong. -/
  reason : Reason
  /-- The number of bytes behind the place. -/
  left : Nat
  deriving DecidableEq, Repr

/-- A reader either fails or gives a value and the bytes that follow it. -/
abbrev Read (α : Type) := Except Failure (α × List UInt8)

/-- The failure behind everything that has been consumed, when `bytes` are left. -/
def here (reason : Reason) (bytes : List UInt8) : Failure :=
  ⟨reason, bytes.length⟩

/-- The failure that includes the next byte of `bytes`, if there is one. -/
def peeked (reason : Reason) (bytes : List UInt8) : Failure :=
  ⟨reason, bytes.length - 1⟩

/-- A failure at a place of the whole input. -/
structure Error where
  /-- What is wrong. -/
  reason : Reason
  /-- One more than the number of line feeds before the place. -/
  line : Nat
  /-- The number of bytes between the last line feed and the place. -/
  column : Nat
  deriving DecidableEq, Repr

/-- The failure's line and column in the whole input. -/
def Failure.within (failure : Failure) (input : List UInt8) : Error :=
  let consumed := input.take (input.length - failure.left)
  { reason := failure.reason
    line := consumed.count 0x0A + 1
    column := (consumed.reverse.takeWhile (· != 0x0A)).length }

/-- The wording of an error. -/
def Error.message (e : Error) : String :=
  e.reason.message ++ " at line " ++ toString e.line ++ " column " ++ toString e.column

end Json

end InferenceConfig
