import EditorBridge.Text.Utf8
/-!
# Faults in JSON text

Why a text cannot be read and where: a fault remembers how many bytes were left
unread, from which the line and the column follow.
-/

namespace EditorBridge.Json

open Text (Bytes)

/-- What is wrong with a text. -/
inductive Reason where
  | endInList
  | endInObject
  | endInString
  | endInValue
  | expectedColon
  | expectedListEnd
  | expectedObjectEnd
  | expectedIdent
  | expectedValue
  | invalidEscape
  | invalidNumber
  | numberRange
  | invalidText
  | controlCharacter
  | keyNotString
  | loneSurrogate
  | trailingComma
  | trailingCharacters
  | unfinishedSurrogate
  | tooDeep
  | content (text : String)
  deriving DecidableEq, Repr

/-- The wording of a reason. -/
def Reason.message : Reason → String
  | .endInList => "EOF while parsing a list"
  | .endInObject => "EOF while parsing an object"
  | .endInString => "EOF while parsing a string"
  | .endInValue => "EOF while parsing a value"
  | .expectedColon => "expected `:`"
  | .expectedListEnd => "expected `,` or `]`"
  | .expectedObjectEnd => "expected `,` or `\x7d`"
  | .expectedIdent => "expected ident"
  | .expectedValue => "expected value"
  | .invalidEscape => "invalid escape"
  | .invalidNumber => "invalid number"
  | .numberRange => "number out of range"
  | .invalidText => "invalid unicode code point"
  | .controlCharacter => "control character (\\u0000-\\u001F) found while parsing a string"
  | .keyNotString => "key must be a string"
  | .loneSurrogate => "lone leading surrogate in hex escape"
  | .trailingComma => "trailing comma"
  | .trailingCharacters => "trailing characters"
  | .unfinishedSurrogate => "unexpected end of hex escape"
  | .tooDeep => "recursion limit exceeded"
  | .content text => text

/-- A reason, and the number of bytes behind the place it was found at. -/
structure Fault where
  reason : Reason
  left : Nat
  deriving DecidableEq, Repr

/-- A fault at the next unread byte. -/
def Fault.here (reason : Reason) (rest : Bytes) : Fault := ⟨reason, rest.length⟩

/-- A fault of the next unread byte, which counts as seen. -/
def Fault.next (reason : Reason) (rest : Bytes) : Fault := ⟨reason, rest.length - 1⟩

/-- Line and column after reading these bytes: lines count from 1, columns are the bytes since
the last line feed. -/
def place (bytes : Bytes) : Nat × Nat :=
  let step : Nat × Nat → UInt8 → Nat × Nat := fun (line, column) b =>
    if b = 0x0A then (line + 1, 0) else (line, column + 1)
  bytes.foldl step (1, 0)

/-- The wording of a fault in a text. -/
def Fault.message (input : Bytes) (fault : Fault) : String :=
  let (line, column) := place (input.take (input.length - fault.left))
  s!"{fault.reason.message} at line {line} column {column}"

end EditorBridge.Json
