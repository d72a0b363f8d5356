/-!
# Syntax errors of JSON documents

What is wrong with a document and at which byte, and the line and column of that byte. Lines are
counted from 1; the column is the number of bytes of the line up to the byte, so a line feed that is
at fault has column 0 of the line that it opens.
-/

namespace TimetableFeed.Json

inductive SyntaxCause where
  | endInValue
  | endInArray
  | endInObject
  | endInText
  | expectedValue
  | expectedWord
  | invalidNumber
  | expectedCommaOrBracket
  | expectedCommaOrBrace
  | expectedColon
  | trailingComma
  | keyNotText
  | controlCharacter
  | invalidEscape
  | loneSurrogate
  | incompletePair
  | invalidCodePoint
  | tooDeep
  | numberTooLong
  | trailingCharacters
  deriving DecidableEq, Repr

def SyntaxCause.message : SyntaxCause → String
  | .endInValue => "EOF while parsing a value"
  | .endInArray => "EOF while parsing a list"
  | .endInObject => "EOF while parsing an object"
  | .endInText => "EOF while parsing a string"
  | .expectedValue => "expected value"
  | .expectedWord => "expected ident"
  | .invalidNumber => "invalid number"
  | .expectedCommaOrBracket => "expected `,` or `]`"
  | .expectedCommaOrBrace => "expected `,` or `\x7d`"
  | .expectedColon => "expected `:`"
  | .trailingComma => "trailing comma"
  | .keyNotText => "key must be a string"
  | .controlCharacter => "control character (\\u0000-\\u001F) found while parsing a string"
  | .invalidEscape => "invalid escape"
  | .loneSurrogate => "lone leading surrogate in hex escape"
  | .incompletePair => "unexpected end of hex escape"
  | .invalidCodePoint => "invalid unicode code point"
  | .tooDeep => "recursion limit exceeded"
  | .numberTooLong => "number out of range"
  | .trailingCharacters => "trailing characters"

/-- What is wrong, and the index of the byte. At the end of the document the index is its length. -/
structure SyntaxError where
  cause : SyntaxCause
  index : Nat
  deriving DecidableEq, Repr

def lineAt (bytes : List UInt8) (index : Nat) : Nat := 1 + (bytes.take (index + 1)).count 10

def columnAt (bytes : List UInt8) (index : Nat) : Nat :=
  ((bytes.take (index + 1)).reverse.takeWhile (· ≠ 10)).length

def SyntaxError.message (e : SyntaxError) (bytes : List UInt8) : String :=
  s!"{e.cause.message} at line {lineAt bytes e.index} column {columnAt bytes e.index}"

end TimetableFeed.Json
