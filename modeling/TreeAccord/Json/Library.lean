import TreeAccord.Json.Record
import TreeAccord.Json.Value

/-!
# A library for JSON

What is asked of a library: to write values, and to read texts as the data of a program. What the
data look like, the names of their fields and what may be left out, is said by the program.
-/

namespace TreeAccord.Json

structure Library where
  /-- What reads data of a type. -/
  Reader : Type → Type
  /-- What can be wrong with a text. -/
  Fault : Type
  compact : Json → String
  pretty : Json → String
  text : Reader String
  /-- Reads null as none. -/
  textOrNull : Reader (Option String)
  list {α : Type} : Reader α → Reader (List α)
  /-- Reads one of some names, which are listed for messages. -/
  choice {α : Type} (expected : String) (named : String → Option α) : Reader α
  record {σ : Type} : Shape Reader σ → Reader σ
  map {α β : Type} : (α → β) → Reader α → Reader β
  /-- Reads a text that holds one value and nothing else. -/
  whole {α : Type} : Reader α → String → Except Fault α

namespace Library

/-- A field that stores what `reader` reads. -/
def field (lib : Library) {α σ : Type} (name : String) (required : Bool) (reader : lib.Reader α)
    (store : σ → α → σ) : Member lib.Reader σ where
  name := name
  required := required
  read record := lib.map (store record) reader

/-- A field that holds a list and may be left out. -/
def listField (lib : Library) {α σ : Type} (name : String) (item : lib.Reader α)
    (store : σ → List α → σ) : Member lib.Reader σ :=
  lib.field name false (lib.list item) store

section

variable (lib : Library) {α σ : Type} (name : String)

@[simp] theorem name_field (required : Bool) (reader : lib.Reader α) (store : σ → α → σ) :
    (lib.field name required reader store).name = name := rfl

@[simp] theorem name_listField (item : lib.Reader α) (store : σ → List α → σ) :
    (lib.listField name item store).name = name := rfl

end

/-- The library that is made up of the readers and the written forms here. -/
def standard : Library where
  Reader := Json.Reader
  Fault := Json.Fault
  compact := Json.compact
  pretty := Json.pretty
  text := readText
  textOrNull := readTextOrNull
  list := readList
  choice := readChoice
  record := Shape.read
  map := mapReader
  whole := readWhole

end Library

end TreeAccord.Json
