import TreeAccord.Json.Text
import TreeAccord.Json.Value

/-! # Spellings of JSON values

A value can be written in many ways, with any gaps around its brackets, commas and colons. The
compact and the pretty form are two of them. -/

namespace TreeAccord.Json

/-! ## Gaps and separators -/

/-- Only characters that may stand between tokens. -/
def Gap (cs : List Char) : Prop := ∀ c ∈ cs, isGap c = true

theorem gap_nil : Gap [] := by simp [Gap]

/-- What stands before an item: nothing before the first one, and otherwise a comma. -/
inductive Separator : (first : Bool) → List Char → Prop where
  | none : Separator true []
  | comma {gap : List Char} (h : Gap gap) : Separator false (gap ++ [','])

theorem separator_comma : Separator false [','] := .comma gap_nil

/-! ## Spellings -/

mutual
/-- The text spells the value. -/
inductive Spells : Json → List Char → Prop where
  | text {s : String} : Spells (.text s) (quote s).toList
  | list {items : List Json} {inside : List Char} (h : SpellsItems true items inside) :
      Spells (.list items) ('[' :: inside)
  | object {fields : List (String × Json)} {inside : List Char}
      (h : SpellsFields true fields inside) : Spells (.object fields) ('\x7b' :: inside)

/-- The text spells the items that a list still has, and its end. -/
inductive SpellsItems : (first : Bool) → List Json → List Char → Prop where
  | nil {first : Bool} {gap : List Char} (h : Gap gap) : SpellsItems first [] (gap ++ [']'])
  | cons {first : Bool} {v : Json} {vs : List Json} {separator gap value later : List Char}
      (before : Separator first separator) (h : Gap gap) (spelled : Spells v value)
      (rest : SpellsItems false vs later) :
      SpellsItems first (v :: vs) (separator ++ (gap ++ (value ++ later)))

/-- The text spells the fields that an object still has, and its end. -/
inductive SpellsFields : (first : Bool) → List (String × Json) → List Char → Prop where
  | nil {first : Bool} {gap : List Char} (h : Gap gap) : SpellsFields first [] (gap ++ ['\x7d'])
  | cons {first : Bool} {name : String} {v : Json} {fields : List (String × Json)}
      {separator gap colonGap valueGap value later : List Char}
      (before : Separator first separator) (h : Gap gap) (hcolon : Gap colonGap)
      (hvalue : Gap valueGap) (spelled : Spells v value) (rest : SpellsFields false fields later) :
      SpellsFields first ((name, v) :: fields) (separator ++ (gap ++ ((quote name).toList ++
        (colonGap ++ ':' :: (valueGap ++ (value ++ later))))))
end

theorem Spells.length_pos {v : Json} {cs : List Char} (h : Spells v cs) : 0 < cs.length := by
  cases h with
  | text => simp [quote]
  | list h => exact Nat.succ_pos _
  | object h => exact Nat.succ_pos _

theorem SpellsItems.length_lt {first : Bool} {items : List Json} {cs : List Char} :
    SpellsItems first items cs → items.length < cs.length
  | .nil h => by simp
  | .cons before h spelled rest => by
    have hvalue := spelled.length_pos
    have hrest := rest.length_lt
    simp only [List.length_append, List.length_cons]
    omega

theorem SpellsFields.length_lt {first : Bool} {fields : List (String × Json)} {cs : List Char} :
    SpellsFields first fields cs → fields.length < cs.length
  | .nil h => by simp
  | .cons before h hcolon hvalue spelled rest => by
    have hrest := rest.length_lt
    simp only [List.length_append, List.length_cons]
    omega

/-! ## The compact form -/

mutual
theorem spells_compact : ∀ v : Json, Spells v v.compact.toList
  | .text s => by
    rw [compact]
    exact .text
  | .list [] => by
    rw [compact, compactItems]
    exact .list (.nil gap_nil)
  | .list (v :: vs) => by
    have h := spellsItems_compact (v :: vs) (by simp) .none
    rw [compact]
    simpa using Spells.list h
  | .object [] => by
    rw [compact, compactFields]
    exact .object (.nil gap_nil)
  | .object (field :: fields) => by
    have h := spellsFields_compact (field :: fields) (by simp) .none
    rw [compact]
    simpa using Spells.object h

theorem spellsItems_compact {first : Bool} {separator : List Char} :
    ∀ items : List Json, items ≠ [] → Separator first separator →
    SpellsItems first items (separator ++ ((compactItems items).toList ++ [']']))
  | [v], _, before => by
    rw [compactItems]
    exact .cons before gap_nil (spells_compact v) (.nil gap_nil)
  | v :: w :: vs, _, before => by
    have hrest := spellsItems_compact (w :: vs) (by simp) separator_comma
    rw [compactItems]
    · simpa using SpellsItems.cons before gap_nil (spells_compact v) hrest
    · exact nofun

theorem spellsFields_compact {first : Bool} {separator : List Char} :
    ∀ fields : List (String × Json), fields ≠ [] → Separator first separator →
    SpellsFields first fields (separator ++ ((compactFields fields).toList ++ ['\x7d']))
  | [(name, v)], _, before => by
    have h : SpellsFields first [(name, v)] _ :=
      .cons before gap_nil gap_nil gap_nil (spells_compact v) (.nil gap_nil)
    rw [compactFields]
    simpa using h
  | (name, v) :: (name', w) :: fields, _, before => by
    have hrest := spellsFields_compact ((name', w) :: fields) (by simp) separator_comma
    have h : SpellsFields first ((name, v) :: (name', w) :: fields) _ :=
      .cons before gap_nil gap_nil gap_nil (spells_compact v) hrest
    rw [compactFields]
    · simpa using h
    · exact nofun
end

/-! ## The pretty form -/

theorem gap_lineStart (level : Nat) : Gap (lineStart level).toList := by
  intro c hc
  simp only [lineStart, String.toList_append, String.toList_ofList, List.mem_append] at hc
  rcases hc with hc | hc
  · obtain rfl : c = '\n' := by simpa using hc
    decide
  · rw [List.eq_of_mem_replicate hc]
    decide

theorem gap_space : Gap [' '] := by
  simp [Gap, isGap]

mutual
theorem spells_prettyAt (level : Nat) : ∀ v : Json, Spells v (prettyAt level v).toList
  | .text s => by
    rw [prettyAt]
    exact .text
  | .list [] => by
    rw [prettyAt]
    exact .list (.nil gap_nil)
  | .list (v :: vs) => by
    have h := spellsItems_pretty (level + 1) (gap_lineStart level) (v :: vs) (by simp) .none
    rw [prettyAt]
    · simpa using Spells.list h
    · exact nofun
  | .object [] => by
    rw [prettyAt]
    exact .object (.nil gap_nil)
  | .object (field :: fields) => by
    have h := spellsFields_pretty (level + 1) (gap_lineStart level) (field :: fields) (by simp)
      .none
    rw [prettyAt]
    · simpa using Spells.object h
    · exact nofun

theorem spellsItems_pretty (level : Nat) {first : Bool} {separator gap : List Char}
    (hgap : Gap gap) :
    ∀ items : List Json, items ≠ [] → Separator first separator →
    SpellsItems first items (separator ++ ((prettyItems level items).toList ++ (gap ++ [']'])))
  | [v], _, before => by
    rw [prettyItems]
    simpa using SpellsItems.cons before (gap_lineStart level) (spells_prettyAt level v) (.nil hgap)
  | v :: w :: vs, _, before => by
    have hrest := spellsItems_pretty level hgap (w :: vs) (by simp) separator_comma
    rw [prettyItems]
    · simpa using SpellsItems.cons before (gap_lineStart level) (spells_prettyAt level v) hrest
    · exact nofun

theorem spellsFields_pretty (level : Nat) {first : Bool} {separator gap : List Char}
    (hgap : Gap gap) :
    ∀ fields : List (String × Json), fields ≠ [] → Separator first separator →
    SpellsFields first fields
      (separator ++ ((prettyFields level fields).toList ++ (gap ++ ['\x7d'])))
  | [(name, v)], _, before => by
    have h : SpellsFields first [(name, v)] _ :=
      .cons before (gap_lineStart level) gap_nil gap_space (spells_prettyAt level v) (.nil hgap)
    rw [prettyFields]
    simpa using h
  | (name, v) :: (name', w) :: fields, _, before => by
    have hrest := spellsFields_pretty level hgap ((name', w) :: fields) (by simp) separator_comma
    have h : SpellsFields first ((name, v) :: (name', w) :: fields) _ :=
      .cons before (gap_lineStart level) gap_nil gap_space (spells_prettyAt level v) hrest
    rw [prettyFields]
    · simpa using h
    · exact nofun
end

end TreeAccord.Json
