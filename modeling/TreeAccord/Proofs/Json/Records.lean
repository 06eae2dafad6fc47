import TreeAccord.Json.Record
import TreeAccord.Proofs.Json.Texts

/-! # Values that are written and read again

A reader is right about a value if it reads every spelling of it. Lists are read if their items are,
and records if their fields are, which may leave out what is not required. -/

namespace TreeAccord.Json

variable {α σ : Type}

/-- The reader turns every spelling of the value into `x`, and leaves what follows. -/
def Reads (reader : Reader α) (v : Json) (x : α) : Prop :=
  ∀ gap cs, Gap gap → Spells v cs → ∀ rest, reader (gap ++ (cs ++ rest)) = .ok (x, rest)

/-! ## Gaps -/

theorem skipGaps_gap {gap : List Char} (h : Gap gap) {c : Char} (hc : isGap c = false)
    (rest : List Char) : skipGaps (gap ++ c :: rest) = c :: rest := by
  rw [skipGaps, List.dropWhile_append_of_pos h, List.dropWhile_cons_of_neg (by simp [hc])]

theorem skipGaps_of_gap {gap : List Char} (h : Gap gap) : skipGaps gap = [] := by
  rw [skipGaps, ← List.append_nil gap, List.dropWhile_append_of_pos h]
  rfl

/-- A value begins with a quote or with a bracket. -/
theorem Spells.exists_head {v : Json} {cs : List Char} (h : Spells v cs) :
    ∃ c inside, cs = c :: inside ∧ (c = '"' ∨ c = '[' ∨ c = '\x7b') := by
  cases h with
  | text => exact ⟨_, _, toList_quote _, .inl rfl⟩
  | list h => exact ⟨_, _, rfl, .inr (.inl rfl)⟩
  | object h => exact ⟨_, _, rfl, .inr (.inr rfl)⟩

/-! ## Texts -/

theorem reads_text (s : String) : Reads readText (.text s) s := by
  intro gap cs hgap hspells rest
  cases hspells
  rw [toList_quote, List.cons_append, List.append_assoc, readText, skipGaps_gap hgap (by decide)]
  exact readQuoted_written s rest

theorem reads_textOrNull (s : String) : Reads readTextOrNull (.text s) (some s) := by
  intro gap cs hgap hspells rest
  have htext := reads_text s [] cs gap_nil hspells rest
  cases hspells
  rw [toList_quote, List.cons_append] at htext ⊢
  rw [readTextOrNull, skipGaps_gap hgap (by decide)]
  change (readText ([] ++ '"' :: _) >>= fun x => .ok (some x.1, x.2)) = _
  rw [htext]
  rfl

theorem reads_choice {expected : String} {named : String → Option α} {name : String} {x : α}
    (h : named name = some x) : Reads (readChoice expected named) (.text name) x := by
  intro gap cs hgap hspells rest
  cases hspells
  simp only [toList_quote, List.cons_append, List.append_assoc, List.nil_append]
  rw [readChoice, skipGaps_gap hgap (by decide)]
  simp only [bind, Except.bind, readQuoted_written, choose, h]
  rfl

/-! ## Lists -/

theorem nextItem_close (first : Bool) {gap : List Char} (h : Gap gap) (rest : List Char) :
    nextItem first (gap ++ ']' :: rest) = .ok (false, ']' :: rest) := by
  rw [nextItem, skipGaps_gap h (by decide)]
  rfl

theorem nextItem_spelled {first : Bool} {separator gap value : List Char} {v : Json}
    (before : Separator first separator) (h : Gap gap) (spelled : Spells v value)
    (rest : List Char) :
    nextItem first (separator ++ (gap ++ (value ++ rest))) = .ok (true, value ++ rest) := by
  obtain ⟨c, inside, rfl, hc⟩ := spelled.exists_head
  have hsolid : isGap c = false := by
    rcases hc with rfl | rfl | rfl <;> decide
  have hskip := skipGaps_gap h hsolid (inside ++ rest)
  cases before with
  | none =>
      rw [List.nil_append, List.cons_append, nextItem, hskip]
      rcases hc with rfl | rfl | rfl <;> rfl
  | comma hcomma =>
      rw [List.append_assoc, List.cons_append, List.cons_append, List.nil_append, nextItem,
        skipGaps_gap hcomma (by decide)]
      dsimp only
      rw [if_neg (by decide), if_neg (by decide), if_pos rfl, hskip]
      rcases hc with rfl | rfl | rfl <;> rfl

theorem readItems_spelled {item : Reader α} {f : α → Json} {first : Bool} {xs : List α}
    {inside : List Char} (hitem : ∀ x ∈ xs, Reads item (f x) x)
    (h : SpellsItems first (xs.map f) inside) {fuel : Nat} (hfuel : xs.length < fuel)
    (rest : List Char) : readItems item fuel first (inside ++ rest) = .ok (xs, rest) := by
  induction xs generalizing first inside fuel with
  | nil =>
      obtain ⟨fuel, rfl⟩ := Nat.exists_eq_add_one.mpr (Nat.zero_lt_of_lt hfuel)
      cases h with
      | nil hgap =>
          rw [List.append_assoc, readItems, List.cons_append, nextItem_close first hgap]
          rfl
  | cons x xs ih =>
      obtain ⟨fuel, rfl⟩ := Nat.exists_eq_add_one.mpr (Nat.zero_lt_of_lt hfuel)
      obtain ⟨hx, hxs⟩ := List.forall_mem_cons.mp hitem
      cases h with
      | @cons _ _ _ separator gap value later before hgap spelled others =>
          have hread : item (value ++ (later ++ rest)) = .ok (x, later ++ rest) :=
            hx [] value gap_nil spelled _
          have hlater := ih hxs others (Nat.lt_of_succ_lt_succ hfuel)
          simp only [List.append_assoc]
          rw [readItems, nextItem_spelled before hgap spelled]
          simp only [bind, Except.bind, if_true, hread, hlater]
          rfl

theorem reads_list {item : Reader α} {f : α → Json} {xs : List α}
    (h : ∀ x ∈ xs, Reads item (f x) x) : Reads (readList item) (.list (xs.map f)) xs := by
  intro gap cs hgap hspells rest
  cases hspells with
  | @list _ inside hinside =>
      have hlength := hinside.length_lt
      rw [List.length_map] at hlength
      rw [List.cons_append, readList, skipGaps_gap hgap (by decide)]
      exact readItems_spelled h hinside (by rw [List.length_append]; omega) rest

/-! ## Fields -/

theorem readColon_gap {gap : List Char} (h : Gap gap) (rest : List Char) :
    readColon (gap ++ ':' :: rest) = .ok rest := by
  rw [readColon, skipGaps_gap h (by decide)]
  rfl

theorem reads_map {β : Type} {reader : Reader α} {v : Json} {x : α} (h : Reads reader v x)
    (f : α → β) : Reads (mapReader f reader) v (f x) := by
  intro gap cs hgap hspells rest
  simp only [mapReader, bind, Except.bind, h gap cs hgap hspells rest]
  rfl

namespace Shape

theorem nextKey_close (first : Bool) {gap : List Char} (h : Gap gap) (rest : List Char) :
    nextKey first (gap ++ '\x7d' :: rest) = .ok (none, rest) := by
  rw [nextKey, skipGaps_gap h (by decide)]
  rfl

theorem nextKey_quote {first : Bool} {separator gap : List Char}
    (before : Separator first separator) (h : Gap gap) (rest : List Char) :
    nextKey first (separator ++ (gap ++ '"' :: rest)) = .ok (some rest, rest) := by
  have hskip := skipGaps_gap h (c := '"') (by decide) rest
  cases before with
  | none =>
      rw [List.nil_append, nextKey, hskip]
      rfl
  | comma hcomma =>
      rw [List.append_assoc, List.cons_append, List.nil_append, nextKey,
        skipGaps_gap hcomma (by decide)]
      dsimp only
      rw [if_neg (by decide), if_neg (by decide), if_pos rfl, hskip]
      rfl

/-- What is written is read field by field, in the order of the shape. Fields that are not required
may be left out. -/
inductive Stored {R : Type → Type} (Read : R σ → Json → σ → Prop) :
    List (Member R σ) → σ → List (String × Json) → σ → Prop where
  | nil {record : σ} : Stored Read [] record [] record
  | read {field : Member R σ} {fields : List (Member R σ)} {record record' final : σ} {v : Json}
      {written : List (String × Json)} (reads : Read (field.read record) v record')
      (rest : Stored Read fields record' written final) :
      Stored Read (field :: fields) record ((field.name, v) :: written) final
  | skip {field : Member R σ} {fields : List (Member R σ)} {record final : σ}
      {written : List (String × Json)} (optional : field.required = false)
      (rest : Stored Read fields record written final) :
      Stored Read (field :: fields) record written final

/-- The keys that were seen when the earlier fields are dealt with: they belong to those fields, and
none that is required is missing. -/
structure Seen (shape : Shape Reader σ) (earlier fields : List (Member Reader σ)) (seen : List String) :
    Prop where
  fields_eq : shape.fields = earlier ++ fields
  named : ∀ name ∈ seen, name ∈ earlier.map Member.name
  required : ∀ field ∈ earlier, field.required = true → field.name ∈ seen

namespace Seen

variable {shape : Shape Reader σ} {earlier fields : List (Member Reader σ)} {field : Member Reader σ}
  {seen : List String}

theorem start (shape : Shape Reader σ) : Seen shape [] shape.fields [] := ⟨rfl, by simp, by simp⟩

theorem read (h : Seen shape earlier (field :: fields) seen) :
    Seen shape (earlier ++ [field]) fields (field.name :: seen) where
  fields_eq := by simpa using h.fields_eq
  named := by
    rw [List.map_append, List.forall_mem_cons]
    exact ⟨by simp, fun name hname => List.mem_append_left _ (h.named name hname)⟩
  required := by
    rw [List.forall_mem_append]
    exact ⟨fun other hother hrequired => List.mem_cons_of_mem _ (h.required other hother hrequired),
      by simp⟩

theorem skip (h : Seen shape earlier (field :: fields) seen) (optional : field.required = false) :
    Seen shape (earlier ++ [field]) fields seen where
  fields_eq := by simpa using h.fields_eq
  named name hname := by
    rw [List.map_append]
    exact List.mem_append_left _ (h.named name hname)
  required := by
    rw [List.forall_mem_append]
    exact ⟨h.required, by simp [optional]⟩

theorem missing?_eq_none (h : Seen shape earlier [] seen) : shape.missing? seen = none := by
  rw [missing?, Option.map_eq_none_iff, List.find?_eq_none, h.fields_eq, List.append_nil]
  intro field hfield
  have hseen := h.required field hfield
  simpa using hseen

section

variable (hnames : (shape.fields.map Member.name).Nodup)
  (h : Seen shape earlier (field :: fields) seen)
include hnames h

theorem name_ne {other : Member Reader σ} (hother : other ∈ earlier) : other.name ≠ field.name := by
  rw [h.fields_eq, List.map_append, List.map_cons, List.nodup_append] at hnames
  exact hnames.2.2 _ (List.mem_map_of_mem hother) _ List.mem_cons_self

theorem find?_eq_some :
    shape.fields.find? (fun other => other.name == field.name) = some field := by
  rw [h.fields_eq]
  refine List.find?_eq_some_iff_append.mpr ⟨beq_self_eq_true _, earlier, fields, rfl, ?_⟩
  intro other hother
  rw [beq_eq_false_iff_ne.mpr (h.name_ne hnames hother), Bool.not_false]

theorem contains_eq_false : seen.contains field.name = false := by
  rw [Bool.eq_false_iff, ne_eq, List.contains_iff_mem]
  intro hseen
  obtain ⟨other, hother, hname⟩ := List.mem_map.mp (h.named _ hseen)
  exact h.name_ne hnames hother hname

end

end Seen

/-- Each round of the reader stores one field, and what it leaves unread is spelled by the fields
after it. -/
theorem readFields_stored {shape : Shape Reader σ} (hnames : (shape.fields.map Member.name).Nodup)
    {earlier fields : List (Member Reader σ)} {record final : σ} {written : List (String × Json)}
    (hstored : Stored Reads fields record written final) {seen : List String}
    (hseen : Seen shape earlier fields seen) {first : Bool} {inside : List Char}
    (h : SpellsFields first written inside) {fuel : Nat} (hfuel : written.length < fuel)
    (rest : List Char) :
    readFields shape fuel first seen record (inside ++ rest) = .ok (final, rest) := by
  induction hstored generalizing earlier seen first inside fuel with
  | nil =>
      obtain ⟨fuel, rfl⟩ := Nat.exists_eq_add_one.mpr (Nat.zero_lt_of_lt hfuel)
      cases h with
      | nil hgap =>
          rw [List.append_assoc, readFields, List.cons_append, nextKey_close first hgap]
          simp only [bind, Except.bind, hseen.missing?_eq_none]
          rfl
  | @read field fields record record' final v written reads _ ih =>
      obtain ⟨fuel, rfl⟩ := Nat.exists_eq_add_one.mpr (Nat.zero_lt_of_lt hfuel)
      cases h with
      | @cons _ _ _ _ separator gap colonGap valueGap value later before hgap hcolon hvalue spelled
          others =>
          have hread : field.read record (valueGap ++ (value ++ (later ++ rest))) =
              .ok (record', later ++ rest) :=
            reads valueGap value hvalue spelled _
          have hlater := ih hseen.read others (Nat.lt_of_succ_lt_succ hfuel)
          simp only [toList_quote, List.append_assoc, List.cons_append, List.nil_append]
          rw [readFields, nextKey_quote before hgap]
          simp only [bind, Except.bind, readQuoted_written, hseen.find?_eq_some hnames,
            hseen.contains_eq_false hnames, readColon_gap hcolon, hread, hlater, Bool.false_eq_true,
            if_false]
  | skip optional _ ih => exact ih (hseen.skip optional) h hfuel

/-- A record is read where its fields are spelled. -/
theorem reads {shape : Shape Reader σ} (hnames : (shape.fields.map Member.name).Nodup) {final : σ}
    {written : List (String × Json)} (h : Stored Reads shape.fields shape.empty written final) :
    Reads shape.read (.object written) final := by
  intro gap cs hgap hspells rest
  cases hspells with
  | @object _ inside hinside =>
      have hlength := hinside.length_lt
      rw [List.cons_append, read, skipGaps_gap hgap (by decide)]
      exact readFields_stored hnames h (.start shape) hinside
        (by rw [List.length_append]; omega) rest

end Shape

/-! ## Whole texts -/

theorem readWhole_spelled {reader : Reader α} {v : Json} {x : α} (h : Reads reader v x)
    {gap cs gap' : List Char} (hgap : Gap gap) (hspells : Spells v cs) (hgap' : Gap gap') :
    readWhole reader (String.ofList (gap ++ (cs ++ gap'))) = .ok x := by
  rw [readWhole, String.toList_ofList, h gap cs hgap hspells]
  simp only [bind, Except.bind, skipGaps_of_gap hgap']
  rfl

theorem readWhole_of_spells {reader : Reader α} {v : Json} {x : α} (h : Reads reader v x)
    {text : String} (hspells : Spells v text.toList) : readWhole reader text = .ok x := by
  have hwhole := readWhole_spelled h gap_nil hspells gap_nil
  rwa [List.nil_append, List.append_nil, String.ofList_toList] at hwhole

end TreeAccord.Json
