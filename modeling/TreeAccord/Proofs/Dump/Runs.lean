import TreeAccord.Proofs.Dump.Indentation
import TreeAccord.Proofs.Tree.Linkage

/-! # Subtrees as runs of rows

In a table whose rows are met one after the other from the root down, the nodes of a subtree stand in
consecutive rows, and its text is what the tokens of these rows say in their order. -/

namespace TreeAccord

theorem Text.concat_flatMap {α : Type} (xs : List α) (f : α → List String) :
    Text.concat (xs.flatMap f) = Text.concat (xs.map fun x => Text.concat (f x)) := by
  induction xs with
  | nil => rfl
  | cons x xs ih => simp [ih]

/-- The nodes of a node are met one after another on the way through the whole tree. -/
theorem Tree.preorder_isInfix {t u : Tree} (h : u ∈ t.preorder) : u.preorder <:+: t.preorder := by
  rcases mem_preorder_iff.mp h with rfl | ⟨v, hv, hu⟩
  · exact List.infix_rfl
  · have hchild : v.preorder <:+: t.children.flatMap preorder := by
      rw [List.flatMap_def]
      exact List.infix_of_mem_flatten (List.mem_map_of_mem hv)
    rw [preorder_eq t]
    exact ((preorder_isInfix hu).trans hchild).trans (List.infix_cons List.infix_rfl)
termination_by t.size
decreasing_by exact size_lt_of_mem_children hv

/-- A part of the first numbers consists of consecutive numbers. -/
theorem eq_range'_of_infix {first n : Nat} {rest : List Nat} (h : first :: rest <:+: List.range n) :
    first :: rest = List.range' first (rest.length + 1) ∧ first + (rest.length + 1) ≤ n := by
  obtain ⟨before, after, hsplit⟩ := h
  rw [List.range_eq_range', eq_comm, List.range'_eq_append_iff] at hsplit
  obtain ⟨k, hk, hfront, -⟩ := hsplit
  rw [eq_comm, List.range'_eq_append_iff] at hfront
  obtain ⟨j, hj, -, hrun⟩ := hfront
  rw [Nat.zero_add, Nat.mul_one] at hrun
  have hlength := congrArg List.length hrun
  rw [List.length_cons, List.length_range'] at hlength
  rw [← hlength] at hrun
  obtain rfl : first = j := by
    rw [List.range'_succ] at hrun
    exact (List.cons.inj hrun).1
  exact ⟨hrun, by omega⟩

namespace NodeTable

variable {t : NodeTable}

/-- The text of the token in a row. -/
def tokenText? (t : NodeTable) (i : Nat) : Option String :=
  (t.row? i).bind fun row => row.token?.map Token.text

theorem lt_size_of_above {i j : Nat} (h : t.Above i j) : j < t.size := by
  cases h with
  | single hparent => exact lt_size_of_parent? hparent
  | tail _ hparent => exact lt_size_of_parent? hparent

theorem mem_visits_iff {i j : Nat} (hi : i < t.size) :
    j ∈ t.visits i ↔ j < t.size ∧ t.subtree j ∈ (t.subtree i).preorder := by
  rw [visits, List.mem_map]
  constructor
  · rintro ⟨u, hu, rfl⟩
    obtain ⟨hrow, hnode⟩ := eq_subtree_of_mem_preorder hi u hu
    rw [← hnode]
    exact ⟨hrow, hu⟩
  · rintro ⟨hj, hmem⟩
    exact ⟨_, hmem, row_subtree hj⟩

/-- Without a token of its own, a node's text is that of its children. -/
theorem text_of_branch {i : Nat} (hi : i < t.size) (htoken : t.isToken i = false) :
    (t.subtree i).text = Text.concat ((t.children i).map fun c => (t.subtree c).text) := by
  have hrow : t.rows[i]? = some t.rows[i] := Array.getElem?_eq_getElem hi
  have hnone : t.rows[i].token? = none := by
    simpa [isToken, row?, hrow] using htoken
  rw [children_of_row hrow, subtree_of_row hrow, hnone]
  simp only [Tree.text, Tree.label_node, List.map_map, Function.comp_def]

namespace Built

variable (h : Built t)
include h

/-- A node's text is that of its tokens, in the order in which they are met. -/
theorem text_subtree {i : Nat} (hi : i < t.size) :
    (t.subtree i).text = Text.concat ((t.visits i).filterMap t.tokenText?) := by
  refine row_induction t
    (P := fun i => (t.subtree i).text = Text.concat ((t.visits i).filterMap t.tokenText?)) ?_ hi
  intro i row hrow ih
  have htext : t.tokenText? i = row.token?.map Token.text := by
    rw [tokenText?, row?, hrow, Option.bind_some]
  rw [visits_of_row hrow, List.filterMap_cons, htext]
  cases htoken : row.token? with
  | some token =>
      have hnil := h.children_eq_nil hrow (Option.isSome_of_eq_some htoken)
      rw [subtree_of_row hrow, hnil, htoken]
      simp [Tree.text]
  | none =>
      rw [subtree_of_row hrow, htoken, Option.map_none]
      simp only [Tree.text, Tree.label_node, List.map_map, Function.comp_def]
      rw [Option.map_none, List.filterMap_flatMap, Text.concat_flatMap]
      exact congrArg Text.concat (List.map_congr_left ih)

/-- A subtree holds the rows of its own node and of those that have it above them. -/
theorem mem_visits_iff_above {i j : Nat} (hi : i < t.size) :
    j ∈ t.visits i ↔ j = i ∨ t.Above i j := by
  rw [mem_visits_iff hi, Tree.mem_preorder_iff_below]
  constructor
  · rintro ⟨hj, hsame | hbelow⟩
    · have hrow := congrArg Tree.row hsame
      rw [row_subtree hi, row_subtree hj] at hrow
      exact .inl hrow
    · exact .inr ((h.above_iff_below hi hj).mpr hbelow)
  · rintro (rfl | habove)
    · exact ⟨hi, .inl rfl⟩
    · have hj := lt_size_of_above habove
      exact ⟨hj, .inr ((h.above_iff_below hi hj).mp habove)⟩

end Built

/-- Where the whole tree goes through the rows in their order, so does every subtree. -/
theorem visits_eq_range' (hvisits : t.visits 0 = List.range t.size) (h : Built t) {i : Nat}
    (hi : i < t.size) :
    t.visits i = List.range' i (t.subtree i).size ∧ i + (t.subtree i).size ≤ t.size := by
  have hrow : t.rows[i]? = some t.rows[i] := Array.getElem?_eq_getElem hi
  have hinfix : t.visits i <:+: t.visits 0 :=
    (Tree.preorder_isInfix (h.subtree_mem_preorder hi)).map Tree.row
  have hlength := t.length_visits i
  rw [hvisits, visits_of_row hrow] at hinfix
  rw [visits_of_row hrow, List.length_cons] at hlength
  rw [visits_of_row hrow, ← hlength]
  exact eq_range'_of_infix hinfix

end NodeTable

namespace Dump

theorem visits_of_decodeWith {rename : String → String} {source : String} {table : NodeTable}
    (hok : decodeWith rename source = .ok table) :
    table.Built ∧ table.visits 0 = List.range table.size := by
  cases hlines : nodeLines source with
  | nil =>
      rw [decodeWith_of_blank rename hlines] at hok
      cases hok
  | cons root rest =>
      obtain ⟨hbuilt, hcount⟩ := built_of_decodeWith hlines hok
      have hsize : (nodeLines source).length ≤ NodeTable.capacity := hcount ▸ hbuilt.size_le
      have hlawful := (exists_decodeWith_eq_ok_iff rename hlines hsize).mp ⟨table, hok⟩
      obtain ⟨table', hok', o, hrows, -⟩ := decodeWith_of_lawful rename hlines hlawful hsize
      rw [hok] at hok'
      obtain rfl := Except.ok.inj hok'
      exact ⟨hbuilt, (hbuilt.indented hrows).preorder_eq⟩

/-- In a table that is read from a text, the node of a row and all nodes below it stand in consecutive
rows from its own on. Its text is put together from the tokens of these rows, in the order of the rows,
and without a token of its own from the texts of its children. -/
theorem decodeWith_runs (rename : String → String) {source : String} {table : NodeTable}
    (hok : decodeWith rename source = .ok table) {i : Nat} (hi : i < table.size) :
    (i + (table.subtree i).size ≤ table.size ∧
      table.visits i = List.range' i (table.subtree i).size ∧
      ∀ j, (j = i ∨ table.Above i j) ↔ i ≤ j ∧ j < i + (table.subtree i).size) ∧
    (table.subtree i).text =
      Text.concat ((List.range' i (table.subtree i).size).filterMap table.tokenText?) ∧
    (table.isToken i = false →
      (table.subtree i).text =
        Text.concat ((table.children i).map fun c => (table.subtree c).text)) := by
  obtain ⟨hbuilt, hvisits⟩ := visits_of_decodeWith hok
  obtain ⟨hrun, hle⟩ := NodeTable.visits_eq_range' hvisits hbuilt hi
  refine ⟨⟨hle, hrun, fun j => ?_⟩, ?_, NodeTable.text_of_branch hi⟩
  · rw [← hbuilt.mem_visits_iff_above hi, hrun, List.mem_range'_1]
  · rw [hbuilt.text_subtree hi, hrun]

/-- A node with two tokens below it, followed by a token beside it. -/
def twoLevelTable : NodeTable where
  rows := #[⟨"Root", none, none, [1, 4]⟩, ⟨"Call", none, some 0, [2, 3]⟩,
    ⟨"Leaf", some ⟨"ID", "f"⟩, some 1, []⟩, ⟨"Leaf", some ⟨"LPAR", "("⟩, some 1, []⟩,
    ⟨"Leaf", some ⟨"SEMI", ";"⟩, some 0, []⟩]
  forward := NodeTable.forward_of_forall (by decide)

def twoLevelText : String :=
  "Root\n  Call\n    Leaf(ID)('f')\n    Leaf(LPAR)('(')\n  Leaf(SEMI)(';')\n"

theorem decode_twoLevelText :
    decode twoLevelText = .ok twoLevelTable ∧ 1 < twoLevelTable.size ∧
      (twoLevelTable.subtree 1).size = 3 ∧ twoLevelTable.visits 1 = List.range' 1 3 ∧
      (twoLevelTable.subtree 1).text = "f(" ∧
      (twoLevelTable.subtree 1).text =
        Text.concat [(twoLevelTable.subtree 2).text, (twoLevelTable.subtree 3).text] := by
  have hread : decode twoLevelText = .ok twoLevelTable := by rfl
  have hi : 1 < twoLevelTable.size := by decide
  have hsize : (twoLevelTable.subtree 1).size = 3 := by decide +kernel
  obtain ⟨⟨-, hrun, -⟩, htext, hbranch⟩ := decodeWith_runs id hread hi
  rw [hsize] at hrun htext
  exact ⟨hread, hi, hsize, hrun, htext.trans (by decide), hbranch (by decide)⟩

end Dump

end TreeAccord
