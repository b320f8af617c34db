namespace DuplexRpc.Json

-- Why a text is no JSON value.
inductive Cause where
  | endInValue
  | endInList
  | endInObject
  | endInString
  | expectedValue
  | expectedLiteral
  | invalidNumber
  | numberOutOfRange
  | controlInString
  | invalidEscape
  | loneSurrogate
  | endOfHexEscape
  | invalidCodePoint
  | listSeparator
  | objectSeparator
  | keySeparator
  | keyNotString
  | trailingComma
  | trailingText
  | tooDeep
  deriving DecidableEq, Repr

def Cause.message : Cause → String
  | .endInValue => "EOF while parsing a value"
  | .endInList => "EOF while parsing a list"
  | .endInObject => "EOF while parsing an object"
  | .endInString => "EOF while parsing a string"
  | .expectedValue => "expected value"
  | .expectedLiteral => "expected ident"
  | .invalidNumber => "invalid number"
  | .numberOutOfRange => "number out of range"
  | .controlInString => "control character (\\u0000-\\u001F) found while parsing a string"
  | .invalidEscape => "invalid escape"
  | .loneSurrogate => "lone leading surrogate in hex escape"
  | .endOfHexEscape => "unexpected end of hex escape"
  | .invalidCodePoint => "invalid unicode code point"
  | .listSeparator => "expected `,` or `]`"
  | .objectSeparator => "expected `,` or `\x7d`"
  | .keySeparator => "expected `:`"
  | .keyNotString => "key must be a string"
  | .trailingComma => "trailing comma"
  | .trailingText => "trailing characters"
  | .tooDeep => "recursion limit exceeded"

-- A cause met after `taken` octets, the offending one included. A fault found only at
-- the end of a string is charged `back` columns earlier.
structure Fault where
  cause : Cause
  taken : Nat
  back : Nat := 0
  deriving DecidableEq, Repr

namespace Fault

def newline : UInt8 := 10

-- Lines count from one and columns from the last line end.
def line (fault : Fault) (source : List UInt8) : Nat :=
  (source.take fault.taken).count newline + 1

def column (fault : Fault) (source : List UInt8) : Nat :=
  ((source.take fault.taken).reverse.takeWhile (· != newline)).length - fault.back

def message (fault : Fault) (source : List UInt8) : String :=
  fault.cause.message ++ " at line " ++ toString (fault.line source) ++
    " column " ++ toString (fault.column source)

end Fault
end DuplexRpc.Json
