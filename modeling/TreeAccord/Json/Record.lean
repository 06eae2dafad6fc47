import TreeAccord.Json.Skip

/-!
# Reading records from JSON

Readers for texts, lists, choices and records. A choice is a name, or an object with the name as key
of a null. A record is an object whose fields come in any order, each at most once, with unknown ones
skipped; or a list of its fields in their order. A field that is left out keeps the value it has in an
empty record, unless it is required.
-/

namespace TreeAccord.Json

/-- Reads a value and returns what follows. -/
abbrev Reader (α : Type) := List Char → Except Fault (α × List Char)

/-! ## Values of another type -/

/-- Describes the value at the front, and returns what follows it. A list or an object is not
entered. -/
def describe : Reader Found
  | [] => Fault.next .endInValue []
  | c :: rest =>
    if c = 'n' then do return (.null, ← readWord ['u', 'l', 'l'] rest)
    else if c = 't' then do return (.boolean true, ← readWord ['r', 'u', 'e'] rest)
    else if c = 'f' then do return (.boolean false, ← readWord ['a', 'l', 's', 'e'] rest)
    else if c = '-' then readNumber true rest
    else if isDigit c then readNumber false (c :: rest)
    else if c = '"' then do
      let (s, rest) ← readQuoted rest
      return (.text s, rest)
    else if c = '[' then .ok (.sequence, c :: rest)
    else if c = '\x7b' then .ok (.map, c :: rest)
    else Fault.next .expectedValue (c :: rest)

/-- The fault of a value that is not of the expected type. -/
def wrongType {α : Type} (expected : String) (cs : List Char) : Except Fault α := do
  let (found, rest) ← describe cs
  Fault.here (.invalidType found expected) rest

/-! ## Texts and lists -/

def readText : Reader String := fun cs =>
  match skipGaps cs with
  | '"' :: rest => readQuoted rest
  | rest => wrongType "a string" rest

/-- Reads null as none. -/
def readTextOrNull : Reader (Option String) := fun cs =>
  match skipGaps cs with
  | 'n' :: rest => do return (none, ← readWord ['u', 'l', 'l'] rest)
  | rest => do
    let (s, rest) ← readText rest
    return (some s, rest)

/-- Goes to the next item of a list, if there is one; the bracket at the end is left unread. -/
def nextItem (first : Bool) (cs : List Char) : Except Fault (Bool × List Char) :=
  match skipGaps cs with
  | [] => Fault.next .endInList []
  | c :: rest =>
    if c = ']' then .ok (false, c :: rest)
    else if first then .ok (true, c :: rest)
    else if c = ',' then
      match skipGaps rest with
      | [] => Fault.next .endInValue []
      | ']' :: rest => Fault.next .trailingComma (']' :: rest)
      | rest => .ok (true, rest)
    else Fault.next .expectedItemEnd (c :: rest)

/-- Reads the end of a list of which no more items are wanted. -/
def closeList (cs : List Char) : Except Fault (List Char) :=
  match skipGaps cs with
  | ']' :: rest => .ok rest
  | ',' :: rest =>
    match skipGaps rest with
    | ']' :: rest => Fault.next .trailingComma (']' :: rest)
    | rest => Fault.next .trailingCharacters rest
  | [] => Fault.next .endInList []
  | rest => Fault.next .trailingCharacters rest

variable {α σ : Type}

/-- Reads items up to the end of their list, one for each round of `fuel`. -/
def readItems (item : Reader α) : (fuel : Nat) → (first : Bool) → Reader (List α)
  | 0, _, cs => Fault.next .endInList cs
  | fuel + 1, first, cs => do
    let (more, rest) ← nextItem first cs
    if more then
      let (x, rest) ← item rest
      let (xs, rest) ← readItems item fuel false rest
      return (x :: xs, rest)
    else return ([], ← closeList rest)

def readList (item : Reader α) : Reader (List α) := fun cs =>
  match skipGaps cs with
  | '[' :: rest => readItems item (rest.length + 1) true rest
  | rest => wrongType "a sequence" rest

/-! ## Choices -/

/-- The choice of the given name, which was read up to `rest`. -/
def choose (expected : String) (named : String → Option α) (name : String) (rest : List Char) :
    Except Fault α :=
  match named name with
  | some x => .ok x
  | none => Fault.here (.unknownVariant name expected) rest

/-- Reads null, the content of a choice that is written as an object. -/
def readUnit (cs : List Char) : Except Fault (List Char) :=
  match skipGaps cs with
  | 'n' :: rest => readWord ['u', 'l', 'l'] rest
  | rest => wrongType "unit" rest

/-- Reads the key of a choice that is written as an object. Only a text is a key, and an empty
object lacks a value. -/
def readKey : Reader String := fun cs =>
  match skipGaps cs with
  | '"' :: rest => readQuoted rest
  | '\x7d' :: rest => Fault.next .expectedValue ('\x7d' :: rest)
  | [] => Fault.next .endInObject []
  | rest => Fault.next .expectedKey rest

/-- Reads a choice: its name, or an object with the name as key. -/
def readChoice (expected : String) (named : String → Option α) : Reader α := fun cs =>
  match skipGaps cs with
  | '"' :: rest => do
    let (name, rest) ← readQuoted rest
    return (← choose expected named name rest, rest)
  | '\x7b' :: rest => do
    let (name, rest) ← readKey rest
    let x ← choose expected named name rest
    let rest ← readUnit (← readColon rest)
    match skipGaps rest with
    | '\x7d' :: rest => return (x, rest)
    | [] => Fault.here .endInObject []
    | rest => Fault.here .expectedValue rest
  | [] => Fault.next .endInValue []
  | rest => Fault.next .expectedValue rest

/-! ## Records -/

/-- One field of a record: reading it changes the record. -/
structure Member (R : Type → Type) (σ : Type) where
  name : String
  required : Bool
  read : σ → R σ

structure Shape (R : Type → Type) (σ : Type) where
  /-- What the record is called in messages. -/
  title : String
  /-- The record without any field. -/
  empty : σ
  fields : List (Member R σ)

namespace Shape

/-- The title with the number of fields. -/
def sizedTitle (shape : Shape Reader σ) : String :=
  shape.title ++ " with " ++ shape.fields.length.repr ++ " elements"

/-- The first required field that has not been seen. -/
def missing? (shape : Shape Reader σ) (seen : List String) : Option String :=
  (shape.fields.find? fun field => field.required && !seen.contains field.name).map Member.name

/-- Goes to the key of the next field of an object and behind its quote, if there is one. -/
def nextKey (first : Bool) (cs : List Char) : Except Fault (Option (List Char) × List Char) :=
  match skipGaps cs with
  | [] => Fault.next .endInObject []
  | c :: rest =>
    if c = '\x7d' then .ok (none, rest)
    else if first then
      if c = '"' then .ok (some rest, rest) else Fault.next .expectedKey (c :: rest)
    else if c = ',' then
      match skipGaps rest with
      | [] => Fault.next .endInValue []
      | '"' :: rest => .ok (some rest, rest)
      | '\x7d' :: rest => Fault.next .trailingComma ('\x7d' :: rest)
      | rest => Fault.next .expectedKey rest
    else Fault.next .expectedFieldEnd (c :: rest)

/-- Where a repeated key is reported: behind it, and behind the end of the object if that is
next. -/
def afterKey (cs : List Char) : List Char :=
  match skipGaps cs with
  | '\x7d' :: rest => rest
  | rest => rest

/-- Reads the fields of an object up to its end, one for each round of `fuel`. -/
def readFields (shape : Shape Reader σ) :
    (fuel : Nat) → (first : Bool) → (seen : List String) → σ → Reader σ
  | 0, _, _, _, cs => Fault.next .endInObject cs
  | fuel + 1, first, seen, record, cs => do
    match ← nextKey first cs with
    | (none, rest) =>
      match shape.missing? seen with
      | some name => Fault.here (.missingField name) rest
      | none => return (record, rest)
    | (some rest, _) =>
      let (key, rest) ← readQuoted rest
      match shape.fields.find? fun field => field.name == key with
      | none =>
        let rest ← skipValue (← readColon rest)
        readFields shape fuel false seen record rest
      | some field =>
        if seen.contains key then Fault.here (.duplicateField key) (afterKey rest)
        else
          let (record, rest) ← field.read record (← readColon rest)
          readFields shape fuel false (key :: seen) record rest

/-- Reads fields in their order from a list, `index` of which are read. -/
def readInOrder (shape : Shape Reader σ) (index : Nat) : List (Member Reader σ) → σ → Reader σ
  | [], record, cs => do return (record, ← closeList cs)
  | field :: fields, record, cs => do
    let (more, rest) ← nextItem (index == 0) cs
    if more then
      let (record, rest) ← field.read record rest
      readInOrder shape (index + 1) fields record rest
    else if field.required then
      Fault.here (.invalidLength index shape.sizedTitle) (rest.drop 1)
    else readInOrder shape (index + 1) fields record rest

def read (shape : Shape Reader σ) : Reader σ := fun cs =>
  match skipGaps cs with
  | '[' :: rest => readInOrder shape 0 shape.fields shape.empty rest
  | '\x7b' :: rest => readFields shape (rest.length + 1) true [] shape.empty rest
  | rest => wrongType shape.title rest

end Shape

/-! ## Parts and whole texts -/

/-- Reads what another reader reads, and goes on with a part or a form of it. -/
def mapReader {β : Type} (f : α → β) (reader : Reader α) : Reader β := fun cs => do
  let (x, rest) ← reader cs
  return (f x, rest)

/-- Reads a text that holds one value and nothing else. -/
def readWhole (reader : Reader α) (source : String) : Except Fault α := do
  let (x, rest) ← reader source.toList
  match skipGaps rest with
  | [] => return x
  | rest => Fault.next .trailingCharacters rest

end TreeAccord.Json
