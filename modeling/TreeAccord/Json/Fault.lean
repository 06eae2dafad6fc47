import TreeAccord.Text.Bytes
import TreeAccord.Text.Quoted

/-!
# Faults of a JSON text

What is wrong with a text, and where. A fault is found with some of the text still unread; its
position counts the bytes read so far, and those of the byte or bytes at which it was noticed.
-/

namespace TreeAccord.Json

/-- What stands where another kind of value belongs. -/
inductive Found where
  | null
  | boolean (value : Bool)
  | integer (value : Int)
  | float (digits : String)
  | text (s : String)
  | sequence
  | map
deriving DecidableEq, Repr

def Found.describe : Found → String
  | null => "null"
  | boolean value => "boolean `" ++ (if value then "true" else "false") ++ "`"
  | integer value => "integer `" ++ toString value ++ "`"
  | float digits => "floating point `" ++ digits ++ "`"
  | text s => "string " ++ Text.quoted s
  | sequence => "sequence"
  | map => "map"

/-- The class of a fault. -/
inductive FaultClass where
  /-- The text is JSON of another shape. -/
  | data
  /-- The text ends too early. -/
  | ending
  /-- The text is no JSON. -/
  | grammar
deriving DecidableEq, Repr

inductive Cause where
  | endInValue
  | endInObject
  | endInList
  | endInText
  | expectedValue
  | expectedKey
  | expectedColon
  | expectedFieldEnd
  | expectedItemEnd
  | trailingComma
  | trailingCharacters
  | expectedWord
  | invalidNumber
  | numberOutOfRange
  | invalidEscape
  | endInEscape
  | loneSurrogate
  | controlCharacter
  | missingField (name : String)
  | duplicateField (name : String)
  | unknownVariant (name : String) (expected : String)
  | invalidType (found : Found) (expected : String)
  | invalidLength (length : Nat) (expected : String)
deriving DecidableEq, Repr

namespace Cause

def faultClass : Cause → FaultClass
  | endInValue | endInObject | endInList | endInText => .ending
  | missingField _ | duplicateField _ | unknownVariant .. | invalidType .. | invalidLength .. =>
    .data
  | _ => .grammar

def message : Cause → String
  | endInValue => "EOF while parsing a value"
  | endInObject => "EOF while parsing an object"
  | endInList => "EOF while parsing a list"
  | endInText => "EOF while parsing a string"
  | expectedValue => "expected value"
  | expectedKey => "key must be a string"
  | expectedColon => "expected `:`"
  | expectedFieldEnd => "expected `,` or `\x7d`"
  | expectedItemEnd => "expected `,` or `]`"
  | trailingComma => "trailing comma"
  | trailingCharacters => "trailing characters"
  | expectedWord => "expected ident"
  | invalidNumber => "invalid number"
  | numberOutOfRange => "number out of range"
  | invalidEscape => "invalid escape"
  | endInEscape => "unexpected end of hex escape"
  | loneSurrogate => "lone leading surrogate in hex escape"
  | controlCharacter => "control character (\\u0000-\\u001F) found while parsing a string"
  | missingField name => "missing field `" ++ name ++ "`"
  | duplicateField name => "duplicate field `" ++ name ++ "`"
  | unknownVariant name expected => "unknown variant `" ++ name ++ "`, expected " ++ expected
  | invalidType found expected =>
    "invalid type: " ++ found.describe ++ ", expected " ++ expected
  | invalidLength length expected =>
    "invalid length " ++ length.repr ++ ", expected " ++ expected

end Cause

structure Fault where
  cause : Cause
  /-- What is unread when the fault is found. -/
  rest : List Char
  /-- The number of bytes of the rest that count as read. -/
  ahead : Nat
deriving DecidableEq, Repr

namespace Fault

/-- A fault that counts what is read so far. -/
def here {α : Type} (cause : Cause) (rest : List Char) : Except Fault α := .error ⟨cause, rest, 0⟩

/-- A fault that also counts the next byte, if there is one. -/
def next {α : Type} (cause : Cause) (rest : List Char) : Except Fault α := .error ⟨cause, rest, 1⟩

/-- The number of bytes of `source` that count as read. -/
def offset (source : List Char) (fault : Fault) : Nat :=
  let unread := Text.byteCount fault.rest
  Text.byteCount source - unread + min fault.ahead unread

/-- Line and column after the given number of bytes: lines count from 1, and columns are the
bytes since the last line feed. -/
def position : (cs : List Char) → (bytes line column : Nat) → Nat × Nat
  | [], bytes, line, column => (line, column + bytes)
  | c :: cs, bytes, line, column =>
    if bytes < c.utf8Size then (line, column + bytes)
    else if c = '\n' then position cs (bytes - 1) (line + 1) 0
    else position cs (bytes - c.utf8Size) line (column + c.utf8Size)

/-- The message with the place at which the fault was found in `source`. -/
def message (source : List Char) (fault : Fault) : String :=
  let (line, column) := position source (fault.offset source) 1 0
  fault.cause.message ++ " at line " ++ line.repr ++ " column " ++ column.repr

end Fault

end TreeAccord.Json
