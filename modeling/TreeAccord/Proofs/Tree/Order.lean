import TreeAccord.Proofs.Tree.Built
import Mathlib.Data.List.Flatten
import Mathlib.Logic.Relation

/-! # Above, below, before and after

Two nodes of a tree stand one below the other or one after the other. In a table the same is told by
the parents of the rows and by the order in which the tree of the table meets them. -/

namespace TreeAccord

namespace Tree

/-! ## Nodes below a node -/

theorem below_of_mem_preorder {t u v : Tree} (hv : v ∈ t.children) (hu : u ∈ v.preorder) :
    u.Below t := by
  rcases mem_preorder_iff.mp hu with rfl | ⟨w, hw, hu⟩
  · exact .child hv
  · exact (below_of_mem_preorder hw hu).trans (.child hv)
termination_by v.size
decreasing_by exact size_lt_of_mem_children hw

theorem below_iff {t u : Tree} : u.Below t ↔ ∃ v ∈ t.children, u ∈ v.preorder := by
  constructor
  · intro h
    induction h with
    | child h => exact ⟨_, h, mem_preorder_self _⟩
    | step h _ ih =>
        obtain ⟨v, hv, hu⟩ := ih
        exact ⟨v, hv, mem_preorder_trans (mem_preorder_of_mem_children h) hu⟩
  · rintro ⟨v, hv, hu⟩
    exact below_of_mem_preorder hv hu

theorem mem_preorder_iff_below {t u : Tree} : u ∈ t.preorder ↔ u = t ∨ u.Below t := by
  rw [mem_preorder_iff, below_iff]

theorem height_lt_of_mem_children {t u : Tree} (h : u ∈ t.children) : u.height < t.height := by
  have hforest : ∀ ts : List Tree, u ∈ ts → u.height + 1 ≤ forestHeight ts := by
    intro ts hu
    induction ts with
    | nil => cases hu
    | cons v ts ih =>
        rw [forestHeight]
        rcases List.mem_cons.mp hu with rfl | hu
        · exact Nat.le_max_left _ _
        · exact Nat.le_trans (ih hu) (Nat.le_max_right _ _)
  obtain ⟨l, cs⟩ := t
  exact hforest cs h

theorem Below.height_lt {t u : Tree} (h : t.Below u) : t.height < u.height := by
  induction h with
  | child h => exact height_lt_of_mem_children h
  | step h _ ih => exact Nat.lt_trans (height_lt_of_mem_children h) ih

theorem not_below_self (t : Tree) : ¬t.Below t := fun h => Nat.lt_irrefl _ h.size_lt

/-- The nodes of a node are met in the same order on the way through the whole tree. -/
theorem preorder_sublist {t u : Tree} (h : u ∈ t.preorder) : u.preorder.Sublist t.preorder := by
  rcases mem_preorder_iff.mp h with rfl | ⟨v, hv, hu⟩
  · exact List.Sublist.refl _
  · have hchild : v.preorder.Sublist (t.children.flatMap preorder) := by
      simpa using (List.singleton_sublist.mpr hv).flatMap preorder
    rw [preorder_eq t]
    exact ((preorder_sublist hu).trans hchild).cons t
termination_by t.size
decreasing_by exact size_lt_of_mem_children hv

/-! ## Order -/

/-- Going through the tree, each node before its children, row `i` is met before row `j`. -/
def Precedes (t : Tree) (i j : Nat) : Prop := [i, j].Sublist (t.preorder.map row)

/-- Where no row is met twice, none of two rows precedes the other both ways. -/
theorem Precedes.asymm {t : Tree} (distinct : (t.preorder.map row).Nodup) {i j : Nat}
    (h : t.Precedes i j) : ¬t.Precedes j i := by
  unfold Precedes at h ⊢
  intro h'
  generalize t.preorder.map row = rows at distinct h h'
  induction rows with
  | nil => cases h
  | cons k rows ih =>
      obtain ⟨hk, distinct⟩ := List.nodup_cons.mp distinct
      cases h with
      | cons _ h =>
          cases h' with
          | cons _ h' => exact ih distinct h h'
          | cons_cons _ h' => exact hk (h.subset (by simp))
      | cons_cons _ h =>
          cases h' with
          | cons _ h' => exact hk (h'.subset (by simp))
          | cons_cons _ h' => exact hk (h.subset (by simp))

end Tree

namespace NodeTable

/-- Row `i` is met on the way from row `j` up to the root. -/
def Above (t : NodeTable) : Nat → Nat → Prop := Relation.TransGen fun i j => t.parent? j = some i

/-! ## Rows and nodes -/

variable {t : NodeTable}

theorem row_subtree {i : Nat} (hi : i < t.size) : (t.subtree i).row = i := by
  rw [subtree_of_row (Array.getElem?_eq_getElem hi)]
  rfl

/-- Every node of a table's tree is the one at its row. -/
theorem eq_subtree_of_mem_preorder {i : Nat} (hi : i < t.size) :
    ∀ u ∈ (t.subtree i).preorder, u.row < t.size ∧ u = t.subtree u.row := by
  refine row_induction t (P := fun i => ∀ u ∈ (t.subtree i).preorder,
    u.row < t.size ∧ u = t.subtree u.row) ?_ hi
  intro i row hrow ih u hu
  rcases Tree.mem_preorder_iff.mp hu with rfl | ⟨v, hv, hu⟩
  · have hi : i < t.size := (Array.getElem?_eq_some_iff.mp hrow).1
    rw [row_subtree hi]
    exact ⟨hi, rfl⟩
  · rw [subtree_of_row hrow] at hv
    obtain ⟨c, hc, rfl⟩ := List.mem_map.mp hv
    exact ih c hc u hu

namespace Built

variable (h : Built t)
include h

/-- The children of a row's node stand in the rows that name the row as their parent. -/
theorem mem_children_subtree_iff {i : Nat} (hi : i < t.size) {u : Tree} :
    u ∈ (t.subtree i).children ↔ ∃ c, t.parent? c = some i ∧ u = t.subtree c := by
  have hrow : t.rows[i]? = some t.rows[i] := Array.getElem?_eq_getElem hi
  rw [subtree_of_row hrow, Tree.children_node, List.mem_map]
  refine exists_congr fun c => ?_
  rw [h.mem_children_of_row_iff hrow, eq_comm (a := u)]

theorem below_of_above {i j : Nat} (habove : t.Above i j) :
    (t.subtree j).Below (t.subtree i) := by
  have hchild : ∀ {i j}, t.parent? j = some i → t.subtree j ∈ (t.subtree i).children := by
    intro i j hparent
    have hi : i < t.size := Nat.lt_trans (h.lt_of_parent? hparent) (lt_size_of_parent? hparent)
    exact (h.mem_children_subtree_iff hi).mpr ⟨j, hparent, rfl⟩
  induction habove with
  | single hparent => exact .child (hchild hparent)
  | tail _ hparent ih => exact .step (hchild hparent) ih

theorem exists_above_of_below {i : Nat} (hi : i < t.size) {u : Tree}
    (hbelow : u.Below (t.subtree i)) : ∃ j, j < t.size ∧ u = t.subtree j ∧ t.Above i j := by
  generalize hv : t.subtree i = v at hbelow
  induction hbelow with
  | child hu =>
      subst hv
      obtain ⟨c, hparent, rfl⟩ := (h.mem_children_subtree_iff hi).mp hu
      exact ⟨c, lt_size_of_parent? hparent, rfl, .single hparent⟩
  | step hu _ ih =>
      obtain ⟨j, hj, rfl, habove⟩ := ih hv
      obtain ⟨c, hparent, rfl⟩ := (h.mem_children_subtree_iff hj).mp hu
      exact ⟨c, lt_size_of_parent? hparent, rfl, .tail habove hparent⟩

theorem exists_parent? {i : Nat} (hpos : 0 < i) (hi : i < t.size) : ∃ p, t.parent? i = some p := by
  induction h with
  | singleton rule => exact absurd hi (Nat.not_lt.mpr hpos)
  | push h hpush ih =>
      rw [parent?_of_push hpush]
      rw [size_of_push hpush] at hi
      split
      · exact ⟨_, rfl⟩
      · exact ih (by omega)

/-- Every row is reached from the root. -/
theorem subtree_mem_preorder {i : Nat} (hi : i < t.size) : t.subtree i ∈ t.tree.preorder := by
  induction i using Nat.strongRecOn with
  | ind i ih =>
      rcases Nat.eq_zero_or_pos i with rfl | hpos
      · exact Tree.mem_preorder_self _
      · obtain ⟨p, hparent⟩ := h.exists_parent? hpos hi
        have hlt := h.lt_of_parent? hparent
        have hp := Nat.lt_trans hlt hi
        have hchild := (h.mem_children_subtree_iff hp).mpr ⟨i, hparent, rfl⟩
        exact Tree.mem_preorder_trans (Tree.mem_preorder_of_mem_children hchild) (ih p hlt hp)

/-- Going through the nodes of the tree is going through the rows. -/
theorem forall_mem_preorder_iff {P : Tree → Prop} :
    (∀ u ∈ t.tree.preorder, P u) ↔ ∀ i, i < t.size → P (t.subtree i) := by
  constructor
  · exact fun hnodes i hi => hnodes _ (h.subtree_mem_preorder hi)
  · intro hrows u hu
    obtain ⟨hlt, hnode⟩ := eq_subtree_of_mem_preorder h.size_pos u hu
    rw [hnode]
    exact hrows u.row hlt

/-- The tree has a node for each row. -/
theorem size_tree : t.tree.size = t.size := by
  refine Nat.le_antisymm h.size_tree_le ?_
  have hmet : List.range t.size ⊆ t.visits 0 := by
    intro i hi
    have hlt := List.mem_range.mp hi
    have hnode := List.mem_map_of_mem (f := Tree.row) (h.subtree_mem_preorder hlt)
    rwa [row_subtree hlt] at hnode
  have hlength := (List.nodup_range.subperm hmet).length_le
  rwa [length_visits, List.length_range] at hlength

/-- One row lies above another exactly if its node has the other's node below it. -/
theorem above_iff_below {i j : Nat} (hi : i < t.size) (hj : j < t.size) :
    t.Above i j ↔ (t.subtree j).Below (t.subtree i) := by
  refine ⟨h.below_of_above, fun hbelow => ?_⟩
  obtain ⟨k, hk, hnode, habove⟩ := h.exists_above_of_below hi hbelow
  have hrow := congrArg Tree.row hnode
  rw [row_subtree hj, row_subtree hk] at hrow
  rwa [hrow]

end Built

end NodeTable

end TreeAccord
