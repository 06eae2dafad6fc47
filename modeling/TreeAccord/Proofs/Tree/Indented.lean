import TreeAccord.Proofs.Outline.Ancestry
import TreeAccord.Proofs.Tree.Built

/-! # Trees given by depths

A list of depths, one for each node in order, leaves no choice of a tree. A table that was built node
by node and holds the rows of an outline is the tree that the depths of the outline's lines give. -/

namespace TreeAccord.NodeTable

/-- The row stands `d` steps below the root. -/
inductive AtDepth (t : NodeTable) : Nat → Nat → Prop where
  | root : AtDepth t 0 0
  | child {i parent d : Nat} (h : t.parent? i = some parent) (above : AtDepth t parent d) :
      AtDepth t i (d + 1)

/-- The table is the tree that the depths give. -/
structure Indented (t : NodeTable) (depths : List Nat) : Prop where
  /-- There is one row for each depth. -/
  size_eq : t.size = depths.length
  /-- Each row is as many steps below the root as its depth says, and no other number. -/
  atDepth_iff : ∀ i d, t.AtDepth i d ↔ depths[i]? = some d
  parent?_root : t.parent? 0 = none
  /-- Below the root, a row's parent is the last one before it that lies one level higher. -/
  parent?_eq : ∀ i, 0 < i → i < t.size → ∃ p, t.parent? i = some p ∧ LastAbove depths i p
  /-- Children are listed in the order of their rows, and none is missing. -/
  children_eq : ∀ i row, t.rows[i]? = some row →
    row.children = (List.range t.size).filter fun j => t.parent? j = some i
  /-- Going through the tree, each node before its children, is going through the rows. -/
  preorder_eq : t.tree.preorder.map Tree.row = List.range t.size

/-! ## Steps to the root -/

section

variable {t : NodeTable} {depths : List Nat}

theorem getElem?_of_atDepth (hroot : depths[0]? = some 0)
    (hparents : ∀ i p, t.parent? i = some p → LastAbove depths i p) {i d : Nat}
    (h : t.AtDepth i d) : depths[i]? = some d := by
  induction h with
  | root => exact hroot
  | child h above ih =>
      obtain ⟨d', hp, hi⟩ := (hparents _ _ h).step
      rw [ih] at hp
      rw [hi, Option.some.inj hp]

theorem atDepth_of_getElem? (hroot : depths[0]? = some 0)
    (hparents : ∀ i, 0 < i → i < depths.length → ∃ p, t.parent? i = some p ∧ LastAbove depths i p)
    {i d : Nat} (h : depths[i]? = some d) : t.AtDepth i d := by
  induction i using Nat.strongRecOn generalizing d with
  | ind i ih =>
      rcases Nat.eq_zero_or_pos i with rfl | hpos
      · rw [hroot] at h
        obtain rfl := Option.some.inj h
        exact .root
      · obtain ⟨p, hparent, hlast⟩ := hparents i hpos (List.getElem?_eq_some_iff.mp h).1
        obtain ⟨d', hp, hi⟩ := hlast.step
        rw [hi] at h
        obtain rfl := Option.some.inj h
        exact .child hparent (ih p hlast.lt hp)

end

/-! ## The order of the rows -/

mutual
/-- Rows that hold an outline are met one after another. -/
theorem visits_of_rows {t : NodeTable} (parent? : Option Nat) (front back : List Row) :
    ∀ o : Outline, t.rows.toList = front ++ o.rows parent? front.length ++ back →
      t.visits front.length = List.range' front.length o.size
  | .node rule token? children, h => by
    rw [Outline.rows] at h
    let row : Row := ⟨rule, token?, parent?, Outline.rootRows (front.length + 1) children⟩
    have hrow : t.rows[front.length]? = some row := by
      rw [← Array.getElem?_toList, h]
      simp [row]
    have hbelow := flatMap_visits_of_forestRows (t := t) (some front.length) (front ++ [row]) back
      children (by simpa [row] using h)
    rw [List.length_append, List.length_singleton] at hbelow
    rw [visits_of_row hrow, hbelow, Outline.size, Nat.add_comm 1, List.range'_succ]

theorem flatMap_visits_of_forestRows {t : NodeTable} (parent? : Option Nat)
    (front back : List Row) :
    ∀ os : List Outline,
      t.rows.toList = front ++ Outline.forestRows parent? front.length os ++ back →
      (Outline.rootRows front.length os).flatMap t.visits =
        List.range' front.length (Outline.forestSize os)
  | [], _ => rfl
  | o :: os, h => by
    rw [Outline.forestRows, ← List.append_assoc] at h
    have hfirst := visits_of_rows (t := t) parent? front
      (Outline.forestRows parent? (front.length + o.size) os ++ back) o (by simpa using h)
    have hlength : (front ++ o.rows parent? front.length).length = front.length + o.size := by
      rw [List.length_append, Outline.length_rows]
    have hrest := flatMap_visits_of_forestRows (t := t) parent?
      (front ++ o.rows parent? front.length) back os (by rw [hlength]; exact h)
    rw [hlength] at hrest
    rw [Outline.rootRows, List.flatMap_cons, hfirst, hrest, List.range'_append_1,
      Outline.forestSize_cons]
end

/-! ## Tables of outlines -/

/-- In a table that holds an outline, only the root has no parent. -/
theorem parent?_cases {t : NodeTable} {o : Outline} (hrows : t.rows.toList = o.rows none 0) {i : Nat}
    (hi : i < t.size) :
    (i = 0 ∧ t.parent? i = none) ∨ ∃ p, t.parent? i = some p ∧ LastAbove (o.depths 0) i p := by
  obtain ⟨row, hrow⟩ : ∃ row, t.rows[i]? = some row := ⟨_, Array.getElem?_eq_getElem hi⟩
  rw [parent?, row?, hrow, Option.bind_some]
  rw [← Array.getElem?_toList, hrows] at hrow
  simpa using Outline.parent?_of_rows none 0 0 hrow

theorem Built.indented {t : NodeTable} (h : Built t) {o : Outline}
    (hrows : t.rows.toList = o.rows none 0) : t.Indented (o.depths 0) := by
  have hsize : t.size = (o.depths 0).length := by
    rw [NodeTable.size, ← Array.length_toList, hrows, Outline.length_rows, Outline.length_depths]
  have hroot : t.parent? 0 = none := by
    rcases parent?_cases hrows h.size_pos with ⟨-, hnone⟩ | ⟨p, -, hlast⟩
    · exact hnone
    · exact absurd hlast.lt (Nat.not_lt_zero p)
  have hbelow : ∀ i, 0 < i → i < t.size →
      ∃ p, t.parent? i = some p ∧ LastAbove (o.depths 0) i p := by
    intro i hpos hi
    rcases parent?_cases hrows hi with ⟨hzero, -⟩ | hlast
    · exact absurd hzero (Nat.ne_of_gt hpos)
    · exact hlast
  have hnamed : ∀ i p, t.parent? i = some p → LastAbove (o.depths 0) i p := by
    intro i p hparent
    rcases parent?_cases hrows (lt_size_of_parent? hparent) with ⟨-, hnone⟩ | ⟨q, hq, hlast⟩
    · rw [hnone] at hparent
      cases hparent
    · rw [hq] at hparent
      rwa [Option.some.inj hparent] at hlast
  have hfirst := o.getElem?_depths_zero 0
  refine ⟨hsize, fun i d => ?_, hroot, hbelow, fun i row => h.children_eq, ?_⟩
  · exact ⟨getElem?_of_atDepth hfirst hnamed, atDepth_of_getElem? hfirst (hsize ▸ hbelow)⟩
  · have hvisits := visits_of_rows (t := t) none [] [] o (by simpa using hrows)
    rw [hsize, Outline.length_depths, List.range_eq_range']
    exact hvisits

end TreeAccord.NodeTable
