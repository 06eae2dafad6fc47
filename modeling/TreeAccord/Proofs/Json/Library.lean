import TreeAccord.Json.Library
import TreeAccord.Proofs.Json.Records

/-! # Laws of a library for JSON

What a library is relied upon for is that it reads what it has written. The laws say so for each kind
of value, under the assumption that its parts are read. The library that is at hand keeps them. -/

namespace TreeAccord.Json

namespace Library

/-- The laws of a library. `Reads reader v x` says that the reader takes the value `v` for `x`,
wherever the library has written it. -/
structure Lawful (lib : Library) (Reads : {α : Type} → lib.Reader α → Json → α → Prop) :
    Prop where
  reads_text (s : String) : Reads lib.text (.text s) s
  reads_textOrNull (s : String) : Reads lib.textOrNull (.text s) (some s)
  reads_choice {α : Type} {expected : String} {named : String → Option α} {name : String} {x : α}
    (h : named name = some x) : Reads (lib.choice expected named) (.text name) x
  reads_list {α : Type} {item : lib.Reader α} {f : α → Json} {xs : List α}
    (h : ∀ x ∈ xs, Reads item (f x) x) : Reads (lib.list item) (.list (xs.map f)) xs
  reads_map {α β : Type} {reader : lib.Reader α} {v : Json} {x : α} (h : Reads reader v x)
    (f : α → β) : Reads (lib.map f reader) v (f x)
  /-- The fields of a record are told apart by their names. -/
  reads_record {σ : Type} {shape : Shape lib.Reader σ} {written : List (String × Json)} {final : σ}
    (distinct : (shape.fields.map Member.name).Nodup)
    (h : Shape.Stored Reads shape.fields shape.empty written final) :
    Reads (lib.record shape) (.object written) final
  whole_compact {α : Type} {reader : lib.Reader α} {v : Json} {x : α} (h : Reads reader v x) :
    lib.whole reader (lib.compact v) = .ok x
  whole_pretty {α : Type} {reader : lib.Reader α} {v : Json} {x : α} (h : Reads reader v x) :
    lib.whole reader (lib.pretty v) = .ok x

namespace Lawful

variable {lib : Library} {Reads : {α : Type} → lib.Reader α → Json → α → Prop}
  (laws : lib.Lawful Reads)
include laws

theorem stored_field {α σ : Type} {reader : lib.Reader α} {v : Json} {x : α}
    (h : Reads reader v x) {name : String} {required : Bool} {store : σ → α → σ}
    {fields : List (Member lib.Reader σ)} {record final : σ} {written : List (String × Json)}
    (rest : Shape.Stored Reads fields (store record x) written final) :
    Shape.Stored Reads (lib.field name required reader store :: fields) record
      ((name, v) :: written) final :=
  .read (laws.reads_map h (store record)) rest

end Lawful

/-- A value is read in every spelling of it, and so in the two that are written. -/
theorem lawful_standard : standard.Lawful Reads where
  reads_text := Json.reads_text
  reads_textOrNull := Json.reads_textOrNull
  reads_choice := Json.reads_choice
  reads_list := Json.reads_list
  reads_map := Json.reads_map
  reads_record distinct h := Shape.reads distinct h
  whole_compact h := readWhole_of_spells h (spells_compact _)
  whole_pretty h := readWhole_of_spells h (spells_prettyAt 0 _)

end Library

end TreeAccord.Json
