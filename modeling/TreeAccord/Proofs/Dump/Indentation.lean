import TreeAccord.Proofs.Dump.Grammar
import TreeAccord.Proofs.Tree.Indented

/-! # What the indentation denotes

The reader goes up from the latest node by as many parents as the indentation falls back. What it
builds in this way is the tree that the depths of the lines give. -/

namespace TreeAccord.Dump

/-! ## One row for each line -/

theorem bind_eq_ok {ε α β : Type} {x : Except ε α} {f : α → Except ε β} {b : β}
    (h : x >>= f = .ok b) : ∃ a, x = .ok a ∧ f a = .ok b := by
  cases x with
  | error e => cases h
  | ok a => exact ⟨a, rfl, h⟩

theorem mapError_eq_ok {ε ε' α : Type} {x : Except ε α} {f : ε → ε'} {a : α}
    (h : x.mapError f = .ok a) : x = .ok a := by
  cases x with
  | error e => cases h
  | ok b =>
      obtain rfl := Except.ok.inj h
      rfl

variable {rename : String → String}

/-- A line that is accepted adds its node somewhere. -/
theorem Growth.exists_push {g g' : Growth} {line : Line} (h : g.add rename line = .ok g') :
    ∃ parent rule token?, g.table.push parent rule token? = .ok g'.table := by
  obtain ⟨depth, -, h⟩ := bind_eq_ok h
  obtain ⟨parent, -, h⟩ := bind_eq_ok h
  dsimp only at h
  split at h
  · cases h
  · obtain ⟨table, hpush, h⟩ := bind_eq_ok h
    obtain rfl := Except.ok.inj h
    exact ⟨parent, _, _, mapError_eq_ok hpush⟩

theorem built_of_foldlM {lines : List Line} {g g' : Growth}
    (h : lines.foldlM (Growth.add rename) g = .ok g') (hbuilt : g.table.Built) :
    g'.table.Built ∧ g'.table.size = g.table.size + lines.length := by
  induction lines generalizing g with
  | nil =>
      obtain rfl := Except.ok.inj h
      exact ⟨hbuilt, rfl⟩
  | cons line lines ih =>
      rw [List.foldlM_cons] at h
      obtain ⟨next, hadd, h⟩ := bind_eq_ok h
      obtain ⟨parent, rule, token?, hpush⟩ := Growth.exists_push hadd
      obtain ⟨hbuilt', hsize⟩ := ih h (.push hbuilt hpush)
      refine ⟨hbuilt', ?_⟩
      rw [hsize, NodeTable.size_of_push hpush, List.length_cons]
      omega

theorem built_of_decodeWith {source : String} {root : Line} {rest : List Line} {table : NodeTable}
    (hlines : nodeLines source = root :: rest) (hok : decodeWith rename source = .ok table) :
    table.Built ∧ table.size = (nodeLines source).length := by
  simp only [decodeWith, hlines] at hok
  cases hfold : rest.foldlM (Growth.add rename) (Growth.start rename root) with
  | error failure =>
      rw [hfold] at hok
      cases hok
  | ok g =>
      rw [hfold] at hok
      obtain rfl := Except.ok.inj hok
      obtain ⟨hbuilt, hsize⟩ := built_of_foldlM hfold (.singleton _)
      refine ⟨hbuilt, ?_⟩
      rw [hsize, hlines, List.length_cons, Nat.add_comm]
      rfl

/-! ## The tree of the lines -/

/-- What is read from a text has one row for each line that is not blank, in their order and with
what they say, and is the tree that the depths of the lines give. The first line is at depth 0, any
other at half the number of its leading spaces. -/
theorem decodeWith_indented (rename : String → String) {source : String} {table : NodeTable}
    (hok : decodeWith rename source = .ok table) :
    ∃ root rest, nodeLines source = root :: rest ∧
      table.rows.toList.map (fun row => (row.rule, row.token?)) =
        (rename root.title, none) ::
          rest.map (fun line => (storedRule rename line.rule, line.token?)) ∧
      table.Indented (0 :: rest.map Line.depth) := by
  cases hlines : nodeLines source with
  | nil =>
      rw [decodeWith_of_blank rename hlines] at hok
      cases hok
  | cons root rest =>
      obtain ⟨hbuilt, hcount⟩ := built_of_decodeWith hlines hok
      have hsize : (nodeLines source).length ≤ NodeTable.capacity := hcount ▸ hbuilt.size_le
      have hlawful := (exists_decodeWith_eq_ok_iff rename hlines hsize).mp ⟨table, hok⟩
      obtain ⟨table', hok', o, hrows, -, hlayout⟩ :=
        decodeWith_of_lawful rename hlines hlawful hsize
      rw [hok] at hok'
      obtain rfl := Except.ok.inj hok'
      refine ⟨root, rest, rfl, ?_, ?_⟩
      · rw [hrows, Outline.map_rows none 0 0, hlayout, List.map_cons, List.map_map]
        rfl
      · have hdepths : o.depths 0 = 0 :: rest.map Line.depth := by
          rw [Outline.depths, hlayout, List.map_cons, List.map_map]
          rfl
        rw [← hdepths]
        exact hbuilt.indented hrows

/-- The last line falls back by two levels and hangs below the root. -/
theorem decode_dedented :
    ∃ table, decode "Root\n  A\n    B\n      C\n  D\n" = .ok table ∧
      table.Indented [0, 1, 2, 3, 1] ∧ table.parent? 4 = some 0 := by
  have hlines : nodeLines "Root\n  A\n    B\n      C\n  D\n" = [⟨1, 0, "Root".toList⟩,
      ⟨2, 5, "  A".toList⟩, ⟨3, 9, "    B".toList⟩, ⟨4, 15, "      C".toList⟩,
      ⟨5, 23, "  D".toList⟩] := by decide
  have hlawful : Lawful ([] ++ [⟨2, 5, "  A".toList⟩] ++ [⟨3, 9, "    B".toList⟩] ++
      [⟨4, 15, "      C".toList⟩] ++ [⟨5, 23, "  D".toList⟩]) :=
    .concat (.concat (.concat (.concat .nil (by decide)) (by decide)) (by decide)) (by decide)
  obtain ⟨table, hok, -⟩ := decodeWith_of_lawful id hlines hlawful (by decide)
  obtain ⟨root, rest, hsplit, -, hindented⟩ := decodeWith_indented id hok
  rw [hlines] at hsplit
  obtain ⟨-, rfl⟩ := List.cons.inj hsplit
  have hdepths : table.Indented [0, 1, 2, 3, 1] := hindented
  obtain ⟨p, hparent, -, ⟨d, hp, hd⟩, -⟩ :=
    hdepths.parent?_eq 4 (by decide) (by rw [hdepths.size_eq]; decide)
  obtain rfl : d = 0 := by simpa using hd.symm
  refine ⟨table, hok, hdepths, ?_⟩
  rcases p with _ | _ | _ | _ | _ | p
  · exact hparent
  all_goals simp at hp

end TreeAccord.Dump
