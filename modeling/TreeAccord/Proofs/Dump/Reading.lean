import TreeAccord.Proofs.Outline.Edge
import TreeAccord.Proofs.Tree.Pushing
import TreeAccord.Proofs.Dump.Offence

/-! # How a table grows line by line

After each line the rows are those of an outline, and the latest node stands on its right edge.
Going up from there meets the edge nodes one by one, all of which have children and hence no token;
so a line is refused below a token only if that token stands on the line before. -/

namespace TreeAccord.Dump

open Outline (OnEdge TokensAtLeaves)

/-- The table holds the outline `o`, and the latest node is the edge node `m`. -/
structure Tracks (g : Growth) (o m : Outline) : Prop where
  rows : g.table.rows.toList = o.rows none 0
  edge : OnEdge o g.depth g.latest m
  leaves : TokensAtLeaves o

namespace Tracks

variable {g : Growth} {o m : Outline} {rename : String → String} {line : Line}

theorem start (rename : String → String) (root : Line) :
    Tracks (Growth.start rename root) (.leaf (rename root.title) none)
      (.leaf (rename root.title) none) where
  rows := rfl
  edge := .root _
  leaves := Outline.tokensAtLeaves_leaf _ _

theorem getElem?_rows (h : Tracks g o m) (i : Nat) :
    g.table.rows[i]? = (o.rows none 0)[i]? := by
  rw [← Array.getElem?_toList, h.rows]

theorem size_eq (h : Tracks g o m) : g.table.size = o.size := by
  rw [NodeTable.size, ← Array.length_toList, h.rows, Outline.length_rows]

/-! ## Going up -/

/-- An edge node stands in its row. -/
theorem exists_row {u : Outline} {depth before : Nat} (h : Tracks g o m)
    (hedge : OnEdge o depth before u) :
    ∃ row, g.table.rows[before]? = some row ∧ row.token? = u.token? := by
  obtain ⟨front, row, back, hrows, hlength, -, htoken, -⟩ := hedge.rows_graft none 0 default
  refine ⟨row, ?_, htoken⟩
  rw [h.getElem?_rows, hrows, ← hlength]
  simp

theorem isToken_eq {u : Outline} {depth before : Nat} (h : Tracks g o m)
    (hedge : OnEdge o depth before u) : g.table.isToken before = u.token?.isSome := by
  obtain ⟨row, hrow, htoken⟩ := h.exists_row hedge
  rw [NodeTable.isToken, NodeTable.row?, hrow, Option.any_some, htoken]

/-- Going up never passes the root, and what it reaches by one step or more has children. -/
theorem ascend_eq_ok {u : Outline} {depth levels before : Nat} (h : Tracks g o m)
    (hedge : OnEdge o (depth + levels) before u) :
    ∃ above upper, ascend g.table levels before = .ok above ∧ OnEdge o depth above upper ∧
      (levels = 0 → upper = u) ∧ (0 < levels → upper.children ≠ []) := by
  induction levels generalizing before u with
  | zero => exact ⟨before, u, rfl, hedge, fun _ => rfl, by simp⟩
  | succ levels ih =>
      obtain ⟨next, upper, row, hupper, hne, hrow, hparent⟩ := hedge.exists_above none 0
      have habove : g.table.above before = .ok next := by
        rw [NodeTable.above, NodeTable.parent?, NodeTable.row?, h.getElem?_rows, hrow,
          Option.bind_some, hparent, Nat.zero_add]
      obtain ⟨above, top, hascend, htop, hsame, hinner⟩ := ih hupper
      refine ⟨above, top, ?_, htop, by simp, ?_⟩
      · rw [ascend, habove]
        exact hascend
      · intro _
        rcases Nat.eq_zero_or_pos levels with hzero | hpos
        · rw [hsame hzero]
          exact hne
        · exact hinner hpos

/-- An edge node with children carries no token. -/
theorem token?_eq_none {u : Outline} {depth before : Nat} (h : Tracks g o m)
    (hedge : OnEdge o depth before u) (hne : u.children ≠ []) : u.token? = none := by
  have hleaves := h.leaves.of_onEdge hedge
  cases hleaves with
  | @node rule token? children leaf below =>
      cases token? with
      | none => rfl
      | some token => exact absurd (leaf rfl) hne

/-! ## One line -/

/-- The row below which a line of a proper depth is put: an edge node that is the latest node itself
or has no token. -/
theorem ascend_to_parent (h : Tracks g o m) (hpos : 0 < line.depth)
    (hle : line.depth ≤ g.depth + 1) :
    ∃ parent upper, ascend g.table (g.depth + 1 - line.depth) g.latest = .ok parent ∧
      OnEdge o (line.depth - 1) parent upper ∧ g.table.isToken parent = upper.token?.isSome ∧
      (line.depth = g.depth + 1 → upper = m) ∧
      (line.depth ≤ g.depth → upper.token? = none) := by
  have hedge : OnEdge o (line.depth - 1 + (g.depth + 1 - line.depth)) g.latest m := by
    have hdepth : line.depth - 1 + (g.depth + 1 - line.depth) = g.depth := by omega
    rw [hdepth]
    exact h.edge
  obtain ⟨parent, upper, hascend, hupper, hsame, hinner⟩ := h.ascend_eq_ok hedge
  refine ⟨parent, upper, hascend, hupper, h.isToken_eq hupper, ?_, ?_⟩
  · intro hdepth
    exact hsame (by omega)
  · intro hdepth
    exact h.token?_eq_none hupper (hinner (by omega))

/-- A line that offends is refused, and for its own fault. -/
theorem add_eq_error {fault : Fault} (h : Tracks g o m)
    (hline : offence? ⟨g.depth, m.token?.isSome⟩ line = some fault) :
    g.add rename line = .error (.fault fault) := by
  rcases checkDepth_of_offence?_eq_some hline with hcheck |
    ⟨hcheck, hspaces, hdepth, hleaf, rfl⟩
  · simp [Growth.add, hcheck, Except.mapError, bind, Except.bind]
  · obtain ⟨parent, upper, hascend, hupper, htoken, hsame, -⟩ :=
      h.ascend_to_parent (Nat.lt_of_lt_of_eq (Nat.succ_pos g.depth) hdepth.symm)
        (Nat.le_of_eq hdepth)
    have hparent : g.table.isToken parent = true := by
      rw [htoken, hsame hdepth]
      exact hleaf
    simp [Growth.add, hcheck, hascend, Line.splitEntry_drop hspaces, hparent, Except.mapError,
      bind, Except.bind, throw, throwThe, MonadExceptOf.throw]

/-- Below an edge node without a token a leaf is grafted. -/
theorem push_eq_ok {upper : Outline} {depth parent : Nat} (h : Tracks g o m)
    (hsize : g.table.size < NodeTable.capacity) (hupper : OnEdge o depth parent upper)
    (hnone : upper.token? = none) (rule : String) (token? : Option Token) :
    ∃ table, g.table.push parent rule token? = .ok table ∧
      Tracks ⟨table, g.table.size, depth + 1⟩ (Outline.graft depth (.leaf rule token?) o)
        (.leaf rule token?) := by
  let child : Outline := .leaf rule token?
  obtain ⟨front, row, back, hrows, hlength, -, hrowtoken, hgraft⟩ := hupper.rows_graft none 0 child
  have hrow : g.table.rows[parent]? = some row := by
    rw [h.getElem?_rows, hrows, ← hlength]
    simp
  obtain ⟨table, hpush, htable⟩ :=
    NodeTable.exists_push_eq_ok hrow (hrowtoken.trans hnone) hsize rule token?
  refine ⟨table, hpush, ?_, ?_, h.leaves.graft hupper hnone (Outline.tokensAtLeaves_leaf _ _)⟩
  · have hcount : g.table.rows.size = o.size := h.size_eq
    rw [htable, ← hlength, NodeTable.toList_extendRows (h.rows.trans hrows), hgraft, hlength]
    simp [hcount, child, Outline.leaf, Outline.rows, Outline.forestRows, Outline.rootRows]
  · rw [h.size_eq]
    exact hupper.graft_last child

/-- Any other line is put below an edge node without a token, if the table takes it. -/
theorem add_eq_push (h : Tracks g o m) (hline : offence? ⟨g.depth, m.token?.isSome⟩ line = none)
    (rename : String → String) :
    ∃ parent upper, OnEdge o (line.depth - 1) parent upper ∧ upper.token? = none ∧
      g.add rename line =
        ((g.table.push parent (storedRule rename line.rule) line.token?).mapError .refused).map
          fun table => ⟨table, g.table.size, line.depth⟩ := by
  obtain ⟨hcheck, hspaces, hpos, hle, hleaf⟩ := checkDepth_of_offence?_eq_none hline
  obtain ⟨parent, upper, hascend, hupper, htoken, hsame, hinner⟩ := h.ascend_to_parent hpos hle
  have hnone : upper.token? = none := by
    by_cases hdepth : line.depth = g.depth + 1
    · rw [hsame hdepth]
      simpa using hleaf hdepth
    · exact hinner (Nat.le_of_lt_succ (Nat.lt_of_le_of_ne hle hdepth))
  have hparent : g.table.isToken parent = false := by
    rw [htoken, hnone]
    rfl
  refine ⟨parent, upper, hupper, hnone, ?_⟩
  cases hpush : g.table.push parent (storedRule rename line.rule) line.token? <;>
    simp [Growth.add, hcheck, hascend, Line.splitEntry_drop hspaces, hparent, hpush,
      Except.mapError, Except.map, bind, Except.bind, pure, Except.pure]

/-- While there are row numbers left, such a line adds its node as a leaf at its depth. -/
theorem add_eq_ok (h : Tracks g o m) (hsize : g.table.size < NodeTable.capacity)
    (hline : offence? ⟨g.depth, m.token?.isSome⟩ line = none) (rename : String → String) :
    ∃ g' o' m', g.add rename line = .ok g' ∧ Tracks g' o' m' ∧
      (⟨g'.depth, m'.token?.isSome⟩ : Standing) = line.standing ∧
      o'.layout 0 = o.layout 0 ++ [line.placed rename] := by
  obtain ⟨-, -, hpos, -, -⟩ := checkDepth_of_offence?_eq_none hline
  obtain ⟨parent, upper, hupper, hnone, hadd⟩ := h.add_eq_push hline rename
  obtain ⟨table, hpush, htracks⟩ :=
    h.push_eq_ok hsize hupper hnone (storedRule rename line.rule) line.token?
  have hbefore : line.depth - 1 + 1 = line.depth := Nat.sub_add_cancel hpos
  rw [hbefore] at htracks
  refine ⟨_, _, _, ?_, htracks, rfl, ?_⟩
  · rw [hadd, hpush]
    rfl
  · rw [hupper.layout_graft, Nat.zero_add, hbefore]
    rfl

/-- When the row numbers are used up, it is refused for that. -/
theorem add_eq_full (h : Tracks g o m) (hfull : NodeTable.capacity ≤ g.table.size)
    (hline : offence? ⟨g.depth, m.token?.isSome⟩ line = none) (rename : String → String) :
    g.add rename line = .error (.refused .full) := by
  obtain ⟨parent, upper, hupper, hnone, hadd⟩ := h.add_eq_push hline rename
  obtain ⟨row, hrow, htoken⟩ := h.exists_row hupper
  rw [hadd, NodeTable.push_eq_full hrow (htoken.trans hnone) hfull]
  rfl

end Tracks

/-! ## All lines -/

/-- What the lines below the root leave behind, if none of them offends. -/
structure Grown (rename : String → String) (root : Line) (rest : List Line) (g : Growth)
    (o m : Outline) : Prop extends Tracks g o m where
  standing : (⟨g.depth, m.token?.isSome⟩ : Standing) = standingAfter rest
  layout : o.layout 0 = ⟨0, rename root.title, none⟩ :: rest.map (Line.placed rename)

theorem Grown.size_eq {rename : String → String} {root : Line} {rest : List Line} {g : Growth}
    {o m : Outline} (h : Grown rename root rest g o m) : g.table.size = rest.length + 1 := by
  rw [h.toTracks.size_eq, ← Outline.length_layout 0, h.layout, List.length_cons, List.length_map]

theorem exists_grown (rename : String → String) (root : Line) {rest : List Line}
    (hlawful : Lawful rest) (hsize : rest.length < NodeTable.capacity) :
    ∃ g o m, rest.foldlM (Growth.add rename) (Growth.start rename root) = .ok g ∧
      Grown rename root rest g o m := by
  induction hlawful with
  | nil => exact ⟨_, _, _, rfl, .start rename root, rfl, rfl⟩
  | @concat earlier line _ hline ih =>
      rw [List.length_append, List.length_singleton] at hsize
      obtain ⟨g, o, m, hfold, hgrown⟩ := ih (by omega)
      have hroom : g.table.size < NodeTable.capacity := by
        rw [hgrown.size_eq]
        exact hsize
      rw [← hgrown.standing] at hline
      obtain ⟨g', o', m', hadd, htracks, hstanding, hlayout⟩ :=
        hgrown.toTracks.add_eq_ok hroom hline rename
      refine ⟨g', o', m', ?_, htracks, ?_, ?_⟩
      · rw [List.foldlM_append, hfold]
        simp [hadd, bind, Except.bind, pure, Except.pure]
      · rw [hstanding, standingAfter_concat]
      · rw [hlayout, hgrown.layout]
        simp

/-- A line that offends ends the reading, if the lines before it are read. -/
theorem foldlM_of_offence (rename : String → String) (root : Line) {earlier : List Line} {line : Line}
    {fault : Fault} (hlawful : Lawful earlier) (hsize : earlier.length < NodeTable.capacity)
    (hoffends : offence? (standingAfter earlier) line = some fault) (later : List Line) :
    (earlier ++ line :: later).foldlM (Growth.add rename) (Growth.start rename root) =
      .error (.fault fault) := by
  obtain ⟨g, o, m, hfold, hgrown⟩ := exists_grown rename root hlawful hsize
  rw [← hgrown.standing] at hoffends
  rw [List.foldlM_append, hfold]
  simp [hgrown.toTracks.add_eq_error hoffends, bind, Except.bind]

theorem foldlM_of_firstOffence (rename : String → String) (root : Line) {rest : List Line}
    {fault : Fault} (h : FirstOffence rest fault) (hsize : rest.length ≤ NodeTable.capacity) :
    rest.foldlM (Growth.add rename) (Growth.start rename root) = .error (.fault fault) := by
  obtain ⟨earlier, line, later, rfl, hlawful, hoffends⟩ := h
  rw [List.length_append, List.length_cons] at hsize
  exact foldlM_of_offence rename root hlawful (by omega) hoffends later

/-- The first line for which no row number is left ends the reading. -/
theorem foldlM_of_overfull (rename : String → String) (root : Line) {rest : List Line}
    (hlawful : Lawful rest) (hsize : NodeTable.capacity ≤ rest.length) :
    rest.foldlM (Growth.add rename) (Growth.start rename root) = .error (.refused .full) := by
  have hpos : 0 < NodeTable.capacity := by decide
  obtain ⟨earlier, line, later, rfl, hlength⟩ :
      ∃ earlier line later, rest = earlier ++ line :: later ∧
        earlier.length = NodeTable.capacity - 1 := by
    have hlt : NodeTable.capacity - 1 < rest.length := by omega
    refine ⟨rest.take (NodeTable.capacity - 1), rest[NodeTable.capacity - 1],
      rest.drop (NodeTable.capacity - 1 + 1), ?_, ?_⟩
    · rw [List.getElem_cons_drop, List.take_append_drop]
    · rw [List.length_take, Nat.min_eq_left (Nat.le_of_lt hlt)]
  have hearlier : Lawful earlier := (lawful_iff earlier).mpr fun before line' after hsplit =>
    (lawful_iff _).mp hlawful before line' (after ++ line :: later) (by simp [hsplit])
  have hline := (lawful_iff _).mp hlawful earlier line later rfl
  obtain ⟨g, o, m, hfold, hgrown⟩ := exists_grown rename root hearlier (by omega)
  have hfull : NodeTable.capacity ≤ g.table.size := by
    rw [hgrown.size_eq]
    omega
  rw [← hgrown.standing] at hline
  rw [List.foldlM_append, hfold]
  simp [hgrown.toTracks.add_eq_full hfull hline, bind, Except.bind]

/-- A fault is that of the first line that offends, however many lines there are: the row numbers did
not run out before it. -/
theorem firstOffence_of_foldlM {rename : String → String} {root : Line} {rest : List Line}
    {fault : Fault}
    (h : rest.foldlM (Growth.add rename) (Growth.start rename root) = .error (.fault fault)) :
    FirstOffence rest fault := by
  rcases lawful_or_firstOffence rest with hlawful | ⟨fault', hfirst⟩
  · rcases Nat.lt_or_ge rest.length NodeTable.capacity with hroom | hfull
    · obtain ⟨g, o, m, hfold, -⟩ := exists_grown rename root hlawful hroom
      rw [hfold] at h
      cases h
    · rw [foldlM_of_overfull rename root hlawful hfull] at h
      cases h
  · obtain ⟨earlier, line, later, rfl, hlawful, hoffends⟩ := hfirst
    rcases Nat.lt_or_ge earlier.length NodeTable.capacity with hroom | hfull
    · rw [foldlM_of_offence rename root hlawful hroom hoffends later] at h
      obtain rfl := Failure.fault.inj (Except.error.inj h)
      exact ⟨earlier, line, later, rfl, hlawful, hoffends⟩
    · rw [List.foldlM_append, foldlM_of_overfull rename root hlawful hfull] at h
      cases h

/-! ## The whole text -/

variable {source : String} {root : Line} {rest : List Line}

theorem decodeWith_of_lawful (rename : String → String) (hlines : nodeLines source = root :: rest)
    (hlawful : Lawful rest) (hsize : (nodeLines source).length ≤ NodeTable.capacity) :
    ∃ table, decodeWith rename source = .ok table ∧
      ∃ o : Outline, table.rows.toList = o.rows none 0 ∧ TokensAtLeaves o ∧
        o.layout 0 = ⟨0, rename root.title, none⟩ :: rest.map (Line.placed rename) := by
  rw [hlines] at hsize
  obtain ⟨g, o, m, hfold, hgrown⟩ := exists_grown rename root hlawful hsize
  refine ⟨g.table, ?_, o, hgrown.rows, hgrown.leaves, hgrown.layout⟩
  simp only [decodeWith, hlines, hfold]
  rfl

theorem decodeWith_of_overfull (rename : String → String)
    (hlines : nodeLines source = root :: rest) (hlawful : Lawful rest)
    (hsize : NodeTable.capacity < (nodeLines source).length) :
    decodeWith rename source = .error (.refused .full) := by
  rw [hlines, List.length_cons] at hsize
  simp only [decodeWith, hlines,
    foldlM_of_overfull rename root hlawful (Nat.le_of_lt_succ hsize)]
  rfl

theorem decodeWith_of_firstOffence (rename : String → String) {fault : Fault}
    (hlines : nodeLines source = root :: rest) (h : FirstOffence rest fault)
    (hsize : (nodeLines source).length ≤ NodeTable.capacity) :
    decodeWith rename source = .error (.fault fault) := by
  rw [hlines, List.length_cons] at hsize
  simp only [decodeWith, hlines, foldlM_of_firstOffence rename root h (by omega)]
  rfl

theorem firstOffence_of_decodeWith {rename : String → String} {fault : Fault}
    (h : decodeWith rename source = .error (.fault fault)) (hfault : fault ≠ .empty) :
    ∃ root rest, nodeLines source = root :: rest ∧ FirstOffence rest fault := by
  cases hlines : nodeLines source with
  | nil =>
      simp only [decodeWith, hlines] at h
      exact absurd (Failure.fault.inj (Except.error.inj h)).symm hfault
  | cons root rest =>
      refine ⟨root, rest, rfl, ?_⟩
      simp only [decodeWith, hlines] at h
      cases hfold : rest.foldlM (Growth.add rename) (Growth.start rename root) with
      | ok g =>
          rw [hfold] at h
          cases h
      | error failure =>
          rw [hfold] at h
          obtain rfl := Except.error.inj h
          exact firstOffence_of_foldlM hfold

end TreeAccord.Dump
