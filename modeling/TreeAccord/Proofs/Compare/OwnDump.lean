import TreeAccord.Proofs.Compare.Reflexivity
import TreeAccord.Proofs.Compare.Simulation
import TreeAccord.Proofs.Dump.Produced
import TreeAccord.Proofs.View.Bare
import TreeAccord.Proofs.View.Branching

/-! # A tree against its own dump

A producer and a dump are not of one mind about terminals, and the texts of a dump have escapes in
them. Without settings no comparison asks for either: only nodes with children are compared, which
are terminals to neither, and texts are not looked at. So a tree that can be dumped agrees with what
is read from its dump. -/

namespace TreeAccord

open View

/-! ## Trees that differ in the texts of tokens -/

/-- The second tree says what is read where the first one was written. -/
def Recalls (t u : Tree) : Prop := u.outline = t.outline.mapTokens Dump.recalled

section

variable {t u : Tree} (h : Recalls t u)
include h

theorem Recalls.rule_eq : t.rule = u.rule := by
  rw [Recalls, Tree.outline_eq, Tree.outline_eq, Outline.mapTokens, Outline.node.injEq] at h
  exact h.1.symm

theorem Recalls.children_related : List.Forall₂ Recalls t.children u.children := by
  rw [Recalls, Tree.outline_eq, Tree.outline_eq, Outline.mapTokens, Outline.forestMapTokens_eq_map,
    Outline.node.injEq, List.map_map] at h
  have hchildren : List.Forall₂ Eq (u.children.map Tree.outline)
      (t.children.map (Outline.mapTokens Dump.recalled ∘ Tree.outline)) := by
    rw [List.forall₂_eq_eq_eq]
    exact h.2.2
  rw [List.forall₂_map_left_iff, List.forall₂_map_right_iff] at hchildren
  exact hchildren.flip

end

/-! ## Nodes that are compared -/

/-- The node has children, and nothing stands below a terminal. -/
structure Inner (t : Tree) : Prop where
  branching : t.children ≠ []
  leaves : t.TerminalsAtLeaves

theorem Inner.terminal_eq {t : Tree} (h : Inner t) : t.terminal = false := by
  rw [Bool.eq_false_iff]
  exact fun hterminal => h.branching (h.leaves t (Tree.mem_preorder_self t) hterminal)

theorem Inner.of_mem_exposed {p : Side} {t u : Tree} (h : Inner t) (hu : u ∈ exposed p t) :
    Inner u where
  branching := (branches_of_mem_exposed hu).children_ne_nil
  leaves v hv := h.leaves v
    (Tree.mem_preorder_trans hv (Tree.mem_preorder_iff_below.mpr (.inr (below_of_mem_exposed hu))))

/-- To a side without settings, nodes with children look like what is recalled of them. -/
theorem simulation_recalls :
    Simulation .bare fun t u => Recalls t u ∧ Inner t ∧ Inner u where
  rule_eq h := h.1.rule_eq
  terminal_eq h := by rw [h.2.1.terminal_eq, h.2.2.terminal_eq]
  arity_eq h := arity_bare_eq Recalls.children_related h.1
  exposed_related h := by
    obtain ⟨h, ht, hu⟩ := h
    refine forall₂_imp_of_mem (fun a ha b hb hab => ?_)
      (exposed_bare_related Recalls.children_related h)
    exact ⟨hab, ht.of_mem_exposed ha, hu.of_mem_exposed hb⟩

/-! ## Agreement -/

theorem accepts_recalled {c r : Tree} (h : Recalls c r) (hc : Inner c) (hr : Inner r) :
    Comparison.accepts ⟨.ofSettings {}, none⟩ c r = true := by
  let s : Comparison := ⟨.ofSettings {}, none⟩
  have hself : s.verdict c c = .agree := by
    rw [Comparison.verdict_eq]
    exact (Comparison.onlyTooDeep_compare (s := s) rfl 0 c).eq_agree
  have hsame : s.verdict c c = s.verdict c r :=
    Simulation.verdict_reference_eq simulation_recalls ⟨h, hc, hr⟩ c
  rw [Comparison.accepts, ← hsame, hself]
  rfl

/-- The dump of a producer's tree is read, and without settings the tree agrees with what is read.
What can stop the reading is the number of rows that a table has room for. -/
theorem accepts_own_dump {c : Tree} (h : Dump.Presentable c) :
    (c.size ≤ NodeTable.capacity → ∃ read, Dump.decode (Dump.print .plain c) = .ok read ∧
      Comparison.accepts ⟨.ofSettings {}, none⟩ c read.tree = true) ∧
    (NodeTable.capacity < c.size →
      Dump.decode (Dump.print .plain c) = .error (.refused .full)) := by
  obtain ⟨hread, hfull⟩ := h.decode_own_print
  refine ⟨fun hroom => ?_, hfull⟩
  obtain ⟨read, hdecode, hbuilt, houtline⟩ := hread hroom
  have hrecalls : Recalls c read.tree := houtline
  have hbranching : read.tree.children ≠ [] := by
    intro hnil
    have hlength := hrecalls.children_related.length_eq
    rw [hnil] at hlength
    exact h.branching (List.eq_nil_of_length_eq_zero hlength)
  refine ⟨read, hdecode, accepts_recalled hrecalls ⟨h.branching, h.terminalsAtLeaves⟩
    ⟨hbranching, hbuilt.terminalsAtLeaves⟩⟩

/-- A call with a line break in its argument, something that is childless without a kind, and an
opening parenthesis of another text. -/
def producedTree : Tree :=
  .node ⟨0, "File: a.kt", none, "f(x\ny)", false⟩
    [.node ⟨1, "CALL", none, "f(x\ny)", false⟩
      [.node ⟨2, "name", some "ID", "f", true⟩ [], .node ⟨3, "", some "LPAR", "[", true⟩ [],
        .node ⟨4, "arguments", none, "x\ny", false⟩
          [.node ⟨5, "text", some "STRING", "x\ny", true⟩ [], .node ⟨6, "gap", none, "", true⟩ []]],
      .node ⟨7, "END", some "EOF", "", true⟩ []]

theorem presentable_producedTree : Dump.Presentable producedTree where
  branching := by decide
  terminal_eq := by decide
  kinds := by decide
  title := ⟨by decide, by decide, by decide⟩
  below := by decide

/-- What is read has other texts than the tree: the escape, and the fixed text of the
parenthesis. -/
theorem accepts_own_dump_producedTree :
    Dump.Presentable producedTree ∧ producedTree.size ≤ NodeTable.capacity ∧
      ∃ read, Dump.decode (Dump.print .plain producedTree) = .ok read ∧
        Comparison.accepts ⟨.ofSettings {}, none⟩ producedTree read.tree = true :=
  ⟨presentable_producedTree, by decide, (accepts_own_dump presentable_producedTree).1 (by decide)⟩

/-! ### A tree with too many nodes -/

/-- A leaf that has no kind. -/
def wideLeaf (row : Nat) : Tree := .node ⟨row, "A", none, "", true⟩ []

/-- A root and so many leaves below it. -/
def wideTree (n : Nat) : Tree :=
  .node ⟨0, "R", none, "", false⟩ ((List.range n).map fun i => wideLeaf (i + 1))

theorem forestPreorder_wideTree (n : Nat) :
    Tree.forestPreorder (wideTree n).children = (List.range n).map fun i => wideLeaf (i + 1) := by
  rw [Tree.forestPreorder_eq_flatMap, wideTree, Tree.children_node, List.flatMap_map,
    List.map_eq_flatMap]
  rfl

theorem size_wideTree (n : Nat) : (wideTree n).size = n + 1 := by
  rw [Tree.size_eq, ← Tree.length_forestPreorder, forestPreorder_wideTree, List.length_map,
    List.length_range, Nat.add_comm]

theorem mem_preorder_wideTree {n : Nat} {u : Tree} (h : u ∈ (wideTree n).preorder) :
    u = wideTree n ∨ ∃ row, u = wideLeaf row := by
  rw [Tree.preorder_eq, ← Tree.forestPreorder_eq_flatMap, forestPreorder_wideTree] at h
  rcases List.mem_cons.mp h with rfl | h
  · exact .inl rfl
  · obtain ⟨i, -, rfl⟩ := List.mem_map.mp h
    exact .inr ⟨i + 1, rfl⟩

theorem presentable_wideTree {n : Nat} (h : 0 < n) : Dump.Presentable (wideTree n) := by
  obtain ⟨n, rfl⟩ := Nat.exists_eq_succ_of_ne_zero (Nat.ne_of_gt h)
  have hbranching : (wideTree (n + 1)).children ≠ [] := by
    rw [wideTree, Tree.children_node, List.range_succ, List.map_append]
    exact List.append_ne_nil_of_right_ne_nil _ (List.cons_ne_nil _ _)
  have htitle : Dump.TitleSafe "R" := ⟨by decide, by decide, by decide⟩
  have hleaf : Dump.Tellable "A" none := by decide
  refine ⟨hbranching, ?terminals, ?kinds, htitle, ?below⟩
  case terminals =>
    intro u hu
    rcases mem_preorder_wideTree hu with rfl | ⟨row, rfl⟩
    · exact (List.isEmpty_eq_false_iff.mpr hbranching).symm
    · rfl
  case kinds =>
    intro u hu hkind
    rcases mem_preorder_wideTree hu with rfl | ⟨row, rfl⟩
    · cases hkind
    · rfl
  case below =>
    intro u hu
    rw [forestPreorder_wideTree] at hu
    obtain ⟨i, -, rfl⟩ := List.mem_map.mp hu
    exact hleaf

/-- The dump of a root with as many leaves as a table has rows is refused, so there is nothing that
the tree could agree with. -/
theorem own_dump_unread_wideTree :
    Dump.Presentable (wideTree NodeTable.capacity) ∧
      Dump.decode (Dump.print .plain (wideTree NodeTable.capacity)) = .error (.refused .full) ∧
      ¬∃ read, Dump.decode (Dump.print .plain (wideTree NodeTable.capacity)) = .ok read ∧
        Comparison.accepts ⟨.ofSettings {}, none⟩ (wideTree NodeTable.capacity) read.tree = true := by
  have hpresentable : Dump.Presentable (wideTree NodeTable.capacity) :=
    presentable_wideTree (by decide)
  have hsize : NodeTable.capacity < (wideTree NodeTable.capacity).size := by
    rw [size_wideTree]
    exact Nat.lt_succ_self _
  have hrefused := hpresentable.decode_own_print.2 hsize
  refine ⟨hpresentable, hrefused, ?_⟩
  rintro ⟨read, hread, -⟩
  rw [hrefused] at hread
  cases hread

end TreeAccord
