/-!
# What is wrong with a text that is no JSON

A text is read from the left and the first problem is the one reported. Problems are of two
categories: the text ended too early, or a character cannot stand where it stands.
-/

namespace CavityConsole.Json

/-- The first problem of a malformed text. -/
inductive Fault where
  /-- The text ends where a value is due. -/
  | endInValue
  /-- The text ends within a string. -/
  | endInString
  /-- The text ends within a list. -/
  | endInList
  /-- The text ends within an object. -/
  | endInObject
  /-- No value starts with this character. -/
  | valueExpected
  /-- A word other than the three literals. -/
  | wordExpected
  /-- A key is not followed by a colon. -/
  | colonExpected
  /-- A member is followed by neither a comma nor the closing brace. -/
  | memberEndExpected
  /-- An element is followed by neither a comma nor the closing bracket. -/
  | elementEndExpected
  /-- A key is not a string. -/
  | keyExpected
  /-- A comma stands before the closing bracket or brace. -/
  | trailingComma
  /-- Something follows the value. -/
  | trailingCharacters
  /-- The digits of a number are not in order. -/
  | invalidNumber
  /-- A number is too large for a 64-bit value. -/
  | numberOutOfRange
  /-- An unknown escape, or one with a bad hexadecimal digit. -/
  | invalidEscape
  /-- A control character stands in a string. -/
  | controlCharacter
  /-- Half of a surrogate pair stands alone. -/
  | loneSurrogate
  /-- The first half of a surrogate pair is not followed by another escape. -/
  | unpairedSurrogate
  /-- Too many lists and objects within one another. -/
  | tooDeep
deriving DecidableEq, Repr

namespace Fault

/-- Whether the text just ended too early. -/
def isEnd : Fault → Bool
  | .endInValue | .endInString | .endInList | .endInObject => true
  | _ => false

/-- The wording of the problem. -/
def message : Fault → String
  | .endInValue => "EOF while parsing a value"
  | .endInString => "EOF while parsing a string"
  | .endInList => "EOF while parsing a list"
  | .endInObject => "EOF while parsing an object"
  | .valueExpected => "expected value"
  | .wordExpected => "expected ident"
  | .colonExpected => "expected `:`"
  | .memberEndExpected => "expected `,` or `\x7d`"
  | .elementEndExpected => "expected `,` or `]`"
  | .keyExpected => "key must be a string"
  | .trailingComma => "trailing comma"
  | .trailingCharacters => "trailing characters"
  | .invalidNumber => "invalid number"
  | .numberOutOfRange => "number out of range"
  | .invalidEscape => "invalid escape"
  | .controlCharacter => "control character (\\u0000-\\u001F) found while parsing a string"
  | .loneSurrogate => "lone leading surrogate in hex escape"
  | .unpairedSurrogate => "unexpected end of hex escape"
  | .tooDeep => "recursion limit exceeded"

end Fault

end CavityConsole.Json
