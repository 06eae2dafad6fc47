import TreeAccord.Proofs.Outline.Basic
import TreeAccord.Proofs.Tree.Pushing

/-! # Outlines of stored trees

A table whose rows are those of an outline denotes a tree of that outline. -/

namespace TreeAccord

namespace Tree

mutual
/-- The rules and tokens of a tree in their places. -/
def outline : Tree → Outline
  | .node l children =>
    .node l.rule (l.kind?.map fun kind => ⟨kind, l.text⟩) (forestOutline children)

def forestOutline : List Tree → List Outline
  | [] => []
  | t :: ts => t.outline :: forestOutline ts
end

theorem forestOutline_eq_map (ts : List Tree) : forestOutline ts = ts.map outline := by
  induction ts with
  | nil => rfl
  | cons t ts ih => rw [forestOutline, ih, List.map_cons]

theorem outline_eq (t : Tree) :
    t.outline = .node t.rule (t.kind?.map fun kind => ⟨kind, t.text⟩) (t.children.map outline) := by
  obtain ⟨l, cs⟩ := t
  rw [outline, forestOutline_eq_map]
  rfl

mutual
theorem size_outline : ∀ t : Tree, t.outline.size = t.size
  | node _ cs => by rw [outline, Outline.size, size, forestSize_forestOutline]

theorem forestSize_forestOutline :
    ∀ ts : List Tree, Outline.forestSize (forestOutline ts) = forestSize ts
  | [] => rfl
  | t :: ts => by
    rw [forestOutline, Outline.forestSize_cons, forestSize_cons, size_outline,
      forestSize_forestOutline]
end

end Tree

namespace NodeTable

theorem outline_of_row {t : NodeTable} {i : Nat} {row : Row} (h : t.rows[i]? = some row) :
    (t.subtree i).outline =
      .node row.rule row.token? (row.children.map fun c => (t.subtree c).outline) := by
  have hchildren : (row.children.map t.subtree).map Tree.outline =
      row.children.map fun c => (t.subtree c).outline := by
    rw [List.map_map]
    rfl
  rw [subtree_of_row h, Tree.outline, Tree.forestOutline_eq_map, hchildren]
  obtain ⟨rule, token?, parent?, children⟩ := row
  cases token? with
  | none => rfl
  | some token => rfl

/-! ## Rows of an outline -/

mutual
theorem outline_subtree_of_rows {t : NodeTable} (parent? : Option Nat) (front back : List Row) :
    ∀ o : Outline, t.rows.toList = front ++ o.rows parent? front.length ++ back →
      (t.subtree front.length).outline = o
  | .node rule token? children, h => by
    rw [Outline.rows] at h
    let row : Row := ⟨rule, token?, parent?, Outline.rootRows (front.length + 1) children⟩
    have hrow : t.rows[front.length]? = some row := by
      rw [← Array.getElem?_toList, h]
      simp [row]
    have hbelow := outline_subtrees_of_forestRows (t := t) (some front.length) (front ++ [row]) back
      children (by simpa [row] using h)
    rw [List.length_append, List.length_singleton] at hbelow
    rw [outline_of_row hrow, hbelow]

theorem outline_subtrees_of_forestRows {t : NodeTable} (parent? : Option Nat)
    (front back : List Row) :
    ∀ os : List Outline,
      t.rows.toList = front ++ Outline.forestRows parent? front.length os ++ back →
      (Outline.rootRows front.length os).map (fun c => (t.subtree c).outline) = os
  | [], _ => rfl
  | o :: os, h => by
    rw [Outline.forestRows, ← List.append_assoc] at h
    have hfirst := outline_subtree_of_rows (t := t) parent? front
      (Outline.forestRows parent? (front.length + o.size) os ++ back) o (by simpa using h)
    have hlength : (front ++ o.rows parent? front.length).length = front.length + o.size := by
      rw [List.length_append, Outline.length_rows]
    have hrest := outline_subtrees_of_forestRows (t := t) parent?
      (front ++ o.rows parent? front.length) back os (by rw [hlength]; exact h)
    rw [hlength] at hrest
    rw [Outline.rootRows, List.map_cons, hfirst, hrest]
end

/-- The tree of a table that stores an outline from its first row on. -/
theorem outline_tree {t : NodeTable} {o : Outline} (h : t.rows.toList = o.rows none 0) :
    t.tree.outline = o :=
  outline_subtree_of_rows none [] [] o (by simpa using h)

end NodeTable

end TreeAccord
