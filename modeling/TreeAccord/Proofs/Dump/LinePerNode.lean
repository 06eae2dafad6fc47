import TreeAccord.Proofs.Dump.RoundTrip
import TreeAccord.Proofs.Tree.Indented
import TreeAccord.Proofs.Tree.Order
import Mathlib

/-! # One line for each node

The dump of a built table is written as one text for each row, in preorder and indented by twice
the row's depth. These texts are the lines of the dump as long as none is broken, and the one thing
that breaks them is white space: its text alone is written without escapes. -/

namespace TreeAccord

namespace Dump

/-! ## Texts and their lines -/

/-- The text is cut into these lines: each is ended by a line feed, and there is no other one. -/
structure CutInto (text : String) (lines : List String) : Prop where
  text_eq : text = Text.concat (lines.map fun line => line ++ "\n")
  unbroken : ∀ line ∈ lines, '\n' ∉ line.toList

/-- What is written has a line feed for each line, and those inside the lines. -/
theorem count_lineFeed_concat (lines : List String) :
    (Text.concat (lines.map fun line => line ++ "\n")).toList.count '\n' =
      lines.length + (lines.flatMap String.toList).count '\n' := by
  rw [toList_concat_lineFeeds]
  induction lines with
  | nil => rfl
  | cons line lines ih =>
      rw [List.map_cons, List.flatMap_cons, List.count_append, List.count_append,
        List.count_singleton_self, ih, List.flatMap_cons, List.count_append, List.length_cons]
      omega

/-- Written lines are broken if there are more line feeds than lines, and only then. -/
theorem unbroken_iff_count {lines : List String} :
    (∀ line ∈ lines, '\n' ∉ line.toList) ↔
      (Text.concat (lines.map fun line => line ++ "\n")).toList.count '\n' = lines.length := by
  rw [count_lineFeed_concat, Nat.add_eq_left, List.count_eq_zero]
  simp

theorem CutInto.count_lineFeed {text : String} {lines : List String} (h : CutInto text lines) :
    text.toList.count '\n' = lines.length := by
  rw [h.text_eq]
  exact unbroken_iff_count.mp h.unbroken

/-! ## Nodes and their lines -/

/-- The line of the node: the indentation of its depth, then its entry. -/
def LineOf (t : NodeTable) (u : Tree) (line : String) : Prop :=
  ∃ depth, t.AtDepth u.row depth ∧ line = indentation depth ++ entry .plain u.label

theorem forall₂_forestText {R : Tree → String → Prop} {depth : Nat} {ts : List Tree}
    (h : ∀ t ∈ ts, List.Forall₂ R t.preorder (nodeText .plain depth t)) :
    List.Forall₂ R (Tree.forestPreorder ts) (forestText .plain depth ts) := by
  induction ts with
  | nil => exact .nil
  | cons t ts ih =>
      obtain ⟨ht, hts⟩ := List.forall_mem_cons.mp h
      rw [Tree.forestPreorder, forestText]
      exact List.rel_append ht (ih hts)

section

variable {t : NodeTable} (h : t.Built)
include h

/-- Below a row of some depth, each node has its line. -/
theorem forall₂_nodeText {i : Nat} (hi : i < t.size) : ∀ {depth : Nat}, t.AtDepth i depth →
    List.Forall₂ (LineOf t) (t.subtree i).preorder (nodeText .plain depth (t.subtree i)) := by
  refine NodeTable.row_induction t (P := fun i => ∀ {depth : Nat}, t.AtDepth i depth →
    List.Forall₂ (LineOf t) (t.subtree i).preorder
      (nodeText .plain depth (t.subtree i))) ?_ hi
  intro i row hrow ih depth hdepth
  rw [NodeTable.subtree_of_row hrow, Tree.preorder, nodeText]
  apply List.Forall₂.cons
  · exact ⟨depth, hdepth, rfl⟩
  · apply forall₂_forestText
    rw [List.forall_mem_map]
    intro c hc
    exact ih c hc (.child ((h.mem_children_of_row_iff hrow).mp hc) hdepth)

/-- The root is written like any other node: it stands at depth zero and carries no token. -/
theorem treeText_eq_nodeText : treeText .plain t.tree = nodeText .plain 0 t.tree := by
  obtain ⟨row, hrow, -, hnone⟩ := h.exists_rootRow
  rw [NodeTable.tree, NodeTable.subtree_of_row hrow, treeText, nodeText, hnone]
  simp [entry, indentation, Tree.rule]

/-- A text is written for each node, in preorder. -/
theorem forall₂_treeText : List.Forall₂ (LineOf t) t.tree.preorder (treeText .plain t.tree) := by
  rw [treeText_eq_nodeText h]
  exact forall₂_nodeText h h.size_pos .root

theorem length_treeText : (treeText .plain t.tree).length = t.size := by
  rw [← (forall₂_treeText h).length_eq, Tree.length_preorder, h.size_tree]

end

/-! ## Broken entries -/

theorem entry_of_row {t : NodeTable} {i : Nat} {row : Row} (hrow : t.rows[i]? = some row) :
    entry .plain (t.subtree i).label = nodeEntry row.rule row.token? := by
  rw [NodeTable.subtree_of_row hrow]
  obtain ⟨rule, token?, parent?, children⟩ := row
  cases token? <;> rfl

/-- White space is the only token whose text can break its entry. -/
theorem lineFeed_mem_nodeEntry_iff {rule : String} {token? : Option Token}
    (hrule : '\n' ∉ rule.toList) (hkind : ∀ token ∈ token?, '\n' ∉ token.kind.toList) :
    '\n' ∈ (nodeEntry rule token?).toList ↔
      ∃ token ∈ token?, token.kind = whiteSpaceRule ∧ '\n' ∈ token.text.toList := by
  cases token? with
  | none => simp [nodeEntry_none, hrule]
  | some token =>
      obtain ⟨kind, text⟩ := token
      by_cases hwhite : kind = whiteSpaceRule
      · subst hwhite
        simp [nodeEntry_whiteSpace, hrule]
      by_cases herror : kind = errorRule
      · subst herror
        simp [nodeEntry_error, hrule, hwhite]
      · have sentinel : isSentinel kind = false := by simp [isSentinel, hwhite, herror]
        have hentry := lineFeed_not_mem_ordinary sentinel text hrule (hkind _ rfl)
        simp [hentry, hwhite]

theorem LineOf.lineFeed_mem_iff {t : NodeTable} {u : Tree} {line : String} (h : LineOf t u line) :
    '\n' ∈ line.toList ↔ '\n' ∈ (entry .plain u.label).toList := by
  obtain ⟨depth, -, rfl⟩ := h
  simp [indentation]

/-- Lines are unbroken if the entries of their nodes are. -/
theorem unbroken_iff_of_forall₂ {t : NodeTable} {nodes : List Tree} {lines : List String}
    (h : List.Forall₂ (LineOf t) nodes lines) :
    (∀ line ∈ lines, '\n' ∉ line.toList) ↔
      ∀ u ∈ nodes, '\n' ∉ (entry .plain u.label).toList := by
  induction h with
  | nil => simp
  | cons hline _ ih => rw [List.forall_mem_cons, List.forall_mem_cons, hline.lineFeed_mem_iff, ih]

/-! ## The lines of a dump -/

/-- The text has exactly one line for each row, and the lines are those of the nodes in preorder. -/
def LinePerNode (t : NodeTable) (text : String) : Prop :=
  ∃ lines, CutInto text lines ∧ lines.length = t.size ∧
    List.Forall₂ (LineOf t) t.tree.preorder lines

section

variable {t : NodeTable} (h : t.Built)
  (rules : ∀ row ∈ t.rows, '\n' ∉ row.rule.toList)
  (kinds : ∀ row ∈ t.rows, ∀ token ∈ row.token?, '\n' ∉ token.kind.toList)
include h rules kinds

/-- The lines of all nodes are unbroken exactly if no white space holds a line feed. -/
theorem unbroken_treeText_iff :
    (∀ line ∈ treeText .plain t.tree, '\n' ∉ line.toList) ↔
      ∀ row ∈ t.rows, ∀ token ∈ row.token?, token.kind = whiteSpaceRule →
        '\n' ∉ token.text.toList := by
  rw [unbroken_iff_of_forall₂ (forall₂_treeText h), h.forall_mem_preorder_iff]
  calc (∀ i, i < t.size → '\n' ∉ (entry .plain (t.subtree i).label).toList)
      ↔ ∀ row ∈ t.rows, '\n' ∉ (nodeEntry row.rule row.token?).toList := by
        rw [Array.forall_mem_iff_forall_getElem]
        refine forall₂_congr fun i hi => ?_
        rw [entry_of_row (Array.getElem?_eq_getElem hi)]
    _ ↔ ∀ row ∈ t.rows, ∀ token ∈ row.token?, token.kind = whiteSpaceRule →
          '\n' ∉ token.text.toList := by
        refine forall₂_congr fun row hrow => ?_
        rw [lineFeed_mem_nodeEntry_iff (rules row hrow) (kinds row hrow)]
        simp

/-- The dump of a built table has one line for each node exactly if no white space holds a line
feed. The text of any other token is arbitrary. -/
theorem print_line_per_node :
    LinePerNode t (print .plain t.tree) ↔
      ∀ row ∈ t.rows, ∀ token ∈ row.token?, token.kind = whiteSpaceRule →
        '\n' ∉ token.text.toList := by
  rw [← unbroken_treeText_iff h rules kinds]
  constructor
  · rintro ⟨lines, hcut, hlength, -⟩
    rw [unbroken_iff_count, length_treeText h, ← hlength]
    exact hcut.count_lineFeed
  · intro hunbroken
    exact ⟨treeText .plain t.tree, ⟨rfl, hunbroken⟩, length_treeText h, forall₂_treeText h⟩

end

/-- The row in the last place is printed in the third line, and the line feed of the other token as
an escape. -/
theorem print_line_per_node_scatteredTable :
    scatteredTable.Built ∧
      print .plain scatteredTable.tree =
        "R\n  A\n    PsiWhiteSpace( )\n  B(K)('x\\ny')\n" ∧
      LinePerNode scatteredTable (print .plain scatteredTable.tree) := by
  refine ⟨built_scatteredTable, by cbv, ?_⟩
  refine (print_line_per_node built_scatteredTable ?_ ?_).mpr ?_
  · decide
  · decide
  · decide

/-! ### White space on two lines -/

def brokenTable : NodeTable where
  rows := #[⟨"Root", none, none, [1]⟩,
    ⟨whiteSpaceRule, some ⟨whiteSpaceRule, "'\n'"⟩, some 0, []⟩]
  forward := NodeTable.forward_of_forall (by decide)

/-- The line feed of the white space is printed as it is, and so two nodes take up three lines. -/
theorem print_brokenTable_overflows :
    brokenTable.Built ∧
      (∀ row ∈ brokenTable.rows, '\n' ∉ row.rule.toList) ∧
      (∀ row ∈ brokenTable.rows, ∀ token ∈ row.token?, '\n' ∉ token.kind.toList) ∧
      brokenTable.size = 2 ∧
      CutInto (print .plain brokenTable.tree) ["Root", "  PsiWhiteSpace('", "')"] ∧
      ¬LinePerNode brokenTable (print .plain brokenTable.tree) := by
  have hpush : (NodeTable.singleton "Root").push 0 whiteSpaceRule
      (some ⟨whiteSpaceRule, "'\n'"⟩) = .ok brokenTable := rfl
  have hprint : print .plain brokenTable.tree = "Root\n  PsiWhiteSpace('\n')\n" := by cbv
  rw [hprint]
  refine ⟨.push (.singleton "Root") hpush, by decide, by decide, rfl, ⟨rfl, by decide⟩, ?_⟩
  rintro ⟨lines, hcut, hlength, -⟩
  have hcount := hcut.count_lineFeed
  rw [hlength] at hcount
  revert hcount
  decide

end Dump

end TreeAccord
