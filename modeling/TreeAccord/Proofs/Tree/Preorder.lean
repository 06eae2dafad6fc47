import TreeAccord.Tree.Basic

/-! # The nodes of a tree -/

namespace TreeAccord.Tree

theorem forestPreorder_eq_flatMap (ts : List Tree) : forestPreorder ts = ts.flatMap preorder := by
  induction ts with
  | nil => rfl
  | cons t ts ih => rw [forestPreorder, ih, List.flatMap_cons]

theorem preorder_eq (t : Tree) : t.preorder = t :: t.children.flatMap preorder := by
  obtain ⟨l, cs⟩ := t
  rw [preorder, forestPreorder_eq_flatMap]
  rfl

mutual
theorem length_preorder : ∀ t : Tree, t.preorder.length = t.size
  | node _ cs => by
    rw [preorder, List.length_cons, length_forestPreorder, size, Nat.add_comm]

theorem length_forestPreorder : ∀ ts : List Tree, (forestPreorder ts).length = forestSize ts
  | [] => rfl
  | t :: ts => by
    rw [forestPreorder, List.length_append, length_preorder, length_forestPreorder,
      forestSize_cons]
end

/-- The nodes of a tree are its root and the nodes of its children. -/
theorem mem_preorder_iff {t u : Tree} :
    u ∈ t.preorder ↔ u = t ∨ ∃ v ∈ t.children, u ∈ v.preorder := by
  rw [preorder_eq, List.mem_cons, List.mem_flatMap]

theorem mem_preorder_self (t : Tree) : t ∈ t.preorder := mem_preorder_iff.mpr (.inl rfl)

theorem mem_preorder_of_mem_children {t u : Tree} (h : u ∈ t.children) : u ∈ t.preorder :=
  mem_preorder_iff.mpr (.inr ⟨u, h, mem_preorder_self u⟩)

theorem mem_preorder_trans {t u v : Tree} (h : u ∈ v.preorder) (h' : v ∈ t.preorder) :
    u ∈ t.preorder := by
  rcases mem_preorder_iff.mp h' with rfl | ⟨w, hw, hv⟩
  · exact h
  · exact mem_preorder_iff.mpr (.inr ⟨w, hw, mem_preorder_trans h hv⟩)
termination_by t.size
decreasing_by exact size_lt_of_mem_children hw

theorem size_le_of_mem_preorder {t u : Tree} (h : u ∈ t.preorder) : u.size ≤ t.size := by
  rcases mem_preorder_iff.mp h with rfl | ⟨v, hv, hu⟩
  · exact Nat.le_refl _
  · have hlt := size_lt_of_mem_children hv
    exact Nat.le_trans (size_le_of_mem_preorder hu) (Nat.le_of_lt hlt)
termination_by t.size
decreasing_by exact size_lt_of_mem_children hv

/-- Nothing stands below a terminal. -/
def TerminalsAtLeaves (t : Tree) : Prop :=
  ∀ u ∈ t.preorder, u.terminal = true → u.children = []

instance (t : Tree) : Decidable t.TerminalsAtLeaves :=
  inferInstanceAs (Decidable (∀ u ∈ t.preorder, u.terminal = true → u.children = []))

end TreeAccord.Tree
