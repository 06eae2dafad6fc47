import TreeAccord.Proofs.Dump.Reading
import TreeAccord.Proofs.Outline.Storage

/-! # What the reader accepts

A text is read to the end unless all its lines are blank or one of them offends; then the first
offence is reported. -/

namespace TreeAccord.Dump

/-! ## Cuts -/

theorem beforeLast?_eq_some {c : Char} {cs before : List Char}
    (h : beforeLast? c cs = some before) : ∃ after, cs = before ++ c :: after := by
  induction cs generalizing before with
  | nil => simp [beforeLast?] at h
  | cons d rest ih =>
      unfold beforeLast? at h
      split at h
      · rename_i front hfront
        obtain rfl := Option.some.inj h
        obtain ⟨after, rfl⟩ := ih hfront
        exact ⟨after, rfl⟩
      · split at h
        · rename_i hd
          obtain rfl := Option.some.inj h
          exact ⟨rest, by simp [hd]⟩
        · cases h

/-- The payload of white space is empty or stands between two parentheses. -/
theorem outerPayload_delimited (entry : List Char) :
    outerPayload entry = [] ∨
      ∃ before after, entry = before ++ '(' :: outerPayload entry ++ ')' :: after := by
  unfold outerPayload
  split
  · rename_i before rest hcut
    obtain ⟨hentry, -⟩ := cutFirst?_eq_some hcut
    cases hlast : beforeLast? ')' rest with
    | none => exact .inl rfl
    | some payload =>
        obtain ⟨after, rfl⟩ := beforeLast?_eq_some hlast
        exact .inr ⟨before, after, by simp [hentry]⟩
  · exact .inl rfl

/-- A line that begins with a sentinel names that sentinel. -/
theorem Line.rule_of_sentinel {line : Line} {rule : String} (hsentinel : isSentinel rule = true)
    (hbegins : rule.toList.isPrefixOf line.entry = true) : line.rule = rule := by
  unfold Line.rule splitEntry
  rcases Bool.or_eq_true _ _ ▸ hsentinel with hrule | hrule
  · obtain rfl := eq_of_beq hrule
    rw [if_pos hbegins]
  · obtain rfl := eq_of_beq hrule
    have hother : whiteSpaceRule.toList.isPrefixOf line.entry = false := by
      obtain ⟨tail, htail⟩ := List.isPrefixOf_iff_prefix.mp hbegins
      rw [← htail]
      rfl
    rw [hother, if_neg Bool.false_ne_true, if_pos hbegins]

/-! ## Acceptance -/

variable {source : String}

theorem nodeLines_eq_nil_iff (source : String) :
    nodeLines source = [] ↔ ∀ line ∈ lines source, line.isBlank = true := by
  simp [nodeLines, List.filter_eq_nil_iff]

theorem decodeWith_of_blank (rename : String → String) (h : nodeLines source = []) :
    decodeWith rename source = .error (.fault .empty) := by
  simp only [decodeWith, h]

theorem decodeWith_eq_error_iff (rename : String → String) {root : Line} {rest : List Line}
    (hlines : nodeLines source = root :: rest)
    (hsize : (nodeLines source).length ≤ NodeTable.capacity) (failure : Failure) :
    decodeWith rename source = .error failure ↔
      ∃ fault, failure = .fault fault ∧ FirstOffence rest fault := by
  constructor
  · intro herror
    rcases lawful_or_firstOffence rest with hlawful | ⟨fault, hfirst⟩
    · obtain ⟨table, hok, -⟩ := decodeWith_of_lawful rename hlines hlawful hsize
      rw [hok] at herror
      cases herror
    · rw [decodeWith_of_firstOffence rename hlines hfirst hsize] at herror
      exact ⟨fault, (Except.error.inj herror).symm, hfirst⟩
  · rintro ⟨fault, rfl, hfirst⟩
    exact decodeWith_of_firstOffence rename hlines hfirst hsize

theorem exists_decodeWith_eq_ok_iff (rename : String → String) {root : Line} {rest : List Line}
    (hlines : nodeLines source = root :: rest)
    (hsize : (nodeLines source).length ≤ NodeTable.capacity) :
    (∃ table, decodeWith rename source = .ok table) ↔ Lawful rest := by
  constructor
  · rintro ⟨table, hok⟩
    rcases lawful_or_firstOffence rest with hlawful | ⟨fault, hfirst⟩
    · exact hlawful
    · rw [decodeWith_of_firstOffence rename hlines hfirst hsize] at hok
      cases hok
  · intro hlawful
    obtain ⟨table, hok, -⟩ := decodeWith_of_lawful rename hlines hlawful hsize
    exact ⟨table, hok⟩

/-- The lines of the tree that is read are the lines of the text. -/
theorem layout_of_decodeWith (rename : String → String) {root : Line} {rest : List Line}
    (hlines : nodeLines source = root :: rest)
    (hsize : (nodeLines source).length ≤ NodeTable.capacity) {table : NodeTable}
    (hok : decodeWith rename source = .ok table) :
    table.tree.outline.layout 0 =
      ⟨0, rename root.title, none⟩ :: rest.map (Line.placed rename) := by
  have hlawful := (exists_decodeWith_eq_ok_iff rename hlines hsize).mp ⟨table, hok⟩
  obtain ⟨table', hok', o, hrows, -, hlayout⟩ := decodeWith_of_lawful rename hlines hlawful hsize
  rw [hok] at hok'
  obtain rfl := Except.ok.inj hok'
  rw [NodeTable.outline_tree hrows, hlayout]

/-- Reading fails with `empty` exactly on blank texts. Otherwise the first line that is not blank is
the root, and reading fails exactly with the fault of the first line that offends; no node is ever
refused by the table, and every cut falls between two characters. A text without offence is read in
full, each line at its depth. -/
theorem decodeWith_grammar (rename : String → String) (source : String)
    (hsize : (nodeLines source).length < NodeTable.capacity) :
    (decodeWith rename source = .error (.fault .empty) ↔
      ∀ line ∈ lines source, line.isBlank = true) ∧
    ∀ root rest, nodeLines source = root :: rest →
      (∀ failure, decodeWith rename source = .error failure ↔
        ∃ fault, failure = .fault fault ∧ FirstOffence rest fault) ∧
      ((∃ table, decodeWith rename source = .ok table) ↔
        ∀ earlier line later, rest = earlier ++ line :: later →
          offence? (standingAfter earlier) line = none) ∧
      (∀ table, decodeWith rename source = .ok table →
        table.tree.outline.layout 0 =
          ⟨0, rename root.title, none⟩ :: rest.map (Line.placed rename)) ∧
      ∀ line ∈ rest,
        Text.byteCount (line.chars.take (line.depth * indentWidth)) = line.depth * indentWidth ∧
        (outerPayload line.entry = [] ∨
          ∃ before after, line.entry = before ++ '(' :: outerPayload line.entry ++ ')' :: after) ∧
        ∀ rule, isSentinel rule = true → rule.toList.isPrefixOf line.entry = true →
          line.rule = rule := by
  have hsize := Nat.le_of_lt hsize
  constructor
  · rw [← nodeLines_eq_nil_iff]
    constructor
    · intro hempty
      cases hlines : nodeLines source with
      | nil => rfl
      | cons root rest =>
          obtain ⟨fault, hfault, earlier, line, later, _, _, hoffends⟩ :=
            (decodeWith_eq_error_iff rename hlines hsize _).mp hempty
          obtain rfl := Failure.fault.inj hfault
          exact absurd hoffends (offence?_ne_empty _ _)
    · exact decodeWith_of_blank rename
  · intro root rest hlines
    refine ⟨decodeWith_eq_error_iff rename hlines hsize, ?_,
      fun table => layout_of_decodeWith rename hlines hsize, ?_⟩
    · rw [← lawful_iff]
      exact exists_decodeWith_eq_ok_iff rename hlines hsize
    · intro line _
      exact ⟨line.byteCount_indentation, outerPayload_delimited _,
        fun rule => Line.rule_of_sentinel⟩

/-- The blank line counts, but it is the token on line 3 that the last line is nested under. -/
theorem decode_nested_under_token :
    (nodeLines "R\n\n  A(K)('x')\n    B\n").length < NodeTable.capacity ∧
      decode "R\n\n  A(K)('x')\n    B\n" =
        .error (.fault (.childOfToken ⟨4, 15, 20⟩ "B")) := by
  have hlines : nodeLines "R\n\n  A(K)('x')\n    B\n" = [⟨1, 0, ['R']⟩,
      ⟨3, 3, "  A(K)('x')".toList⟩, ⟨4, 15, "    B".toList⟩] := by decide
  have hsize : (nodeLines "R\n\n  A(K)('x')\n    B\n").length < NodeTable.capacity := by decide
  obtain ⟨hrejects, -⟩ := (decodeWith_grammar id _ hsize).2 _ _ hlines
  refine ⟨hsize, (hrejects _).mpr ⟨_, rfl, [⟨3, 3, "  A(K)('x')".toList⟩],
    ⟨4, 15, "    B".toList⟩, [], rfl, .concat .nil (by decide), by decide⟩⟩

end TreeAccord.Dump
