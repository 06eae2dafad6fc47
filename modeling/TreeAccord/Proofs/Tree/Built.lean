import TreeAccord.Proofs.Outline.Storage
import TreeAccord.Proofs.Tree.Preorder
import Mathlib.Data.List.Perm.Subperm

/-! # Tables built node by node

No row of a built table is met twice on the way down from the root, so the tree has at most as many
nodes as the table has rows. -/

namespace TreeAccord.NodeTable

/-- The tables that come of a root by adding nodes. -/
inductive Built : NodeTable → Prop where
  | singleton (rule : String) : Built (singleton rule)
  | push {t t' : NodeTable} {parent : Nat} {rule : String} {token? : Option Token} (h : Built t)
      (hpush : t.push parent rule token? = .ok t') : Built t'

/-- The rows met from row `i` downwards. -/
def visits (t : NodeTable) (i : Nat) : List Nat := (t.subtree i).preorder.map Tree.row

theorem visits_of_row {t : NodeTable} {i : Nat} {row : Row} (h : t.rows[i]? = some row) :
    t.visits i = i :: row.children.flatMap t.visits := by
  rw [visits, subtree_of_row h, Tree.preorder, Tree.forestPreorder_eq_flatMap, List.map_cons,
    List.map_flatMap, List.flatMap_map]
  rfl

theorem length_visits (t : NodeTable) (i : Nat) : (t.visits i).length = (t.subtree i).size := by
  rw [visits, List.length_map, Tree.length_preorder]

theorem lt_size_of_mem_visits {t : NodeTable} {i j : Nat} (hi : i < t.size) (h : j ∈ t.visits i) :
    j < t.size := by
  refine row_induction t (P := fun i => j ∈ t.visits i → j < t.size) ?_ hi h
  intro i row hrow ih hj
  rw [visits_of_row hrow, List.mem_cons, List.mem_flatMap] at hj
  rcases hj with rfl | ⟨c, hc, hj⟩
  · exact (Array.getElem?_eq_some_iff.mp hrow).1
  · exact ih c hc hj

theorem lt_size_of_parent? {t : NodeTable} {i p : Nat} (h : t.parent? i = some p) : i < t.size := by
  obtain ⟨row, hrow, -⟩ := Option.bind_eq_some_iff.mp h
  exact (Array.getElem?_eq_some_iff.mp hrow).1

/-! ## Meeting a row once -/

theorem count_visits_of_row {t : NodeTable} {i : Nat} {row : Row} (h : t.rows[i]? = some row)
    (j : Nat) :
    (t.visits i).count j = (row.children.flatMap t.visits).count j + if i = j then 1 else 0 := by
  rw [visits_of_row h, List.count_cons]
  simp only [beq_iff_eq]

/-- A new row is met as often as its parent, and the others as often as before. -/
theorem count_visits_push {t t' : NodeTable} {parent : Nat} {rule : String} {token? : Option Token}
    (hpush : t.push parent rule token? = .ok t') {i : Nat} (hi : i < t.size) (j : Nat) :
    (t'.visits i).count j = (t.visits i).count (if j = t.size then parent else j) := by
  obtain ⟨parentRow, hparent, -, -, hrows⟩ := (push_eq_ok_iff _ _ _ _ _).mp hpush
  have hnew : t'.visits t.size = [t.size] := by
    rw [visits_of_row (by rw [hrows]; exact getElem?_extendRows_size _ _ _ _)]
    rfl
  refine row_induction t (P := fun i => (t'.visits i).count j =
    (t.visits i).count (if j = t.size then parent else j)) ?_ hi
  intro i row hrow ih
  have hlt : i < t.size := (Array.getElem?_eq_some_iff.mp hrow).1
  have hrow' := getElem?_extendRows_of_lt hlt parent parentRow
    { rule, token?, parent? := some parent }
  rw [← hrows] at hrow'
  have hbelow : (row.children.flatMap t'.visits).count j =
      (row.children.flatMap t.visits).count (if j = t.size then parent else j) := by
    rw [List.count_flatMap, List.count_flatMap]
    exact congrArg List.sum (List.map_congr_left ih)
  have hne (hj : j = t.size) : i ≠ j := by
    rw [hj]
    exact Nat.ne_of_lt hlt
  rw [count_visits_of_row hrow]
  by_cases hi : i = parent
  · subst hi
    obtain rfl : parentRow = row := Option.some.inj (hparent.symm.trans hrow)
    rw [if_pos rfl] at hrow'
    rw [count_visits_of_row hrow', List.flatMap_append, List.count_append, hbelow,
      List.flatMap_singleton, ← NodeTable.size, hnew]
    by_cases hj : j = t.size
    · rw [if_pos hj, if_pos rfl, if_neg (hne hj), hj, List.count_singleton_self]
    · rw [if_neg hj, List.count_singleton, if_neg (by simpa using Ne.symm hj), Nat.add_zero]
  · rw [if_neg hi, hrow] at hrow'
    rw [count_visits_of_row hrow', hbelow]
    by_cases hj : j = t.size
    · rw [if_pos hj, if_neg hi, if_neg (hne hj)]
    · rw [if_neg hj]

namespace Built

variable {t : NodeTable}

theorem size_le (h : Built t) : t.size ≤ capacity := by
  cases h with
  | singleton rule =>
      show 1 ≤ capacity
      decide
  | push h hpush =>
      obtain ⟨row, -, -, hsize, -⟩ := (push_eq_ok_iff _ _ _ _ _).mp hpush
      rw [size_of_push hpush]
      exact hsize

theorem size_pos (h : Built t) : 0 < t.size := by
  cases h with
  | singleton rule => exact Nat.one_pos
  | push h hpush =>
      rw [size_of_push hpush]
      exact Nat.succ_pos _

theorem nodup_visits (h : Built t) : (t.visits 0).Nodup := by
  rw [List.nodup_iff_count]
  induction h with
  | singleton rule =>
      have hrow : (NodeTable.singleton rule).rows[0]? = some ({ rule } : Row) := rfl
      have hvisits := visits_of_row hrow
      intro j
      rw [hvisits, List.flatMap_nil, List.count_singleton]
      split
      · exact Nat.le_refl 1
      · exact Nat.zero_le 1
  | push h hpush ih =>
      intro j
      rw [count_visits_push hpush h.size_pos]
      exact ih _

/-- The tree of a built table has no more nodes than the table has rows. -/
theorem size_tree_le (h : Built t) : t.tree.size ≤ t.size := by
  have hsubset : t.visits 0 ⊆ List.range t.size := by
    intro j hj
    exact List.mem_range.mpr (lt_size_of_mem_visits h.size_pos hj)
  have hlength := (h.nodup_visits.subperm hsubset).length_le
  rw [length_visits, List.length_range] at hlength
  exact hlength

/-! ## Parents and children -/

/-- Parents stand before their children. -/
theorem lt_of_parent? (h : Built t) {i j : Nat} (hparent : t.parent? j = some i) : i < j := by
  induction h with
  | singleton rule =>
      cases j with
      | zero => cases hparent
      | succ j => simp [parent?, row?, NodeTable.singleton] at hparent
  | push h hpush ih =>
      rw [parent?_of_push hpush] at hparent
      split at hparent
      · rename_i hj
        obtain ⟨old, hold, -, -, -⟩ := (push_eq_ok_iff _ _ _ _ _).mp hpush
        obtain rfl := Option.some.inj hparent
        rw [hj]
        exact (Array.getElem?_eq_some_iff.mp hold).1
      · exact ih hparent

/-- A row's children are the rows that name it as their parent, in order. -/
theorem children_eq (h : Built t) {i : Nat} {row : Row} (hrow : t.rows[i]? = some row) :
    row.children = (List.range t.size).filter fun j => t.parent? j = some i := by
  induction h generalizing i row with
  | singleton rule =>
      cases i with
      | zero =>
          obtain rfl := Option.some.inj hrow
          rfl
      | succ i => simp [NodeTable.singleton] at hrow
  | @push t t' parent rule token? h hpush ih =>
      obtain ⟨old, hparent, -, -, hrows⟩ := (push_eq_ok_iff _ _ _ _ _).mp hpush
      have holder : (List.range t.size).filter (fun j => t'.parent? j = some i) =
          (List.range t.size).filter fun j => t.parent? j = some i := by
        refine List.filter_congr fun j hj => ?_
        rw [parent?_of_push hpush, if_neg (Nat.ne_of_lt (List.mem_range.mp hj))]
      have hnewest : [t.size].filter (fun j => t'.parent? j = some i) =
          if parent = i then [t.size] else [] := by
        simp [List.filter_cons, parent?_of_push hpush]
      rw [size_of_push hpush, List.range_succ, List.filter_append, holder, hnewest]
      rw [hrows] at hrow
      have hlt := (Array.getElem?_eq_some_iff.mp hrow).1
      rw [extendRows, Array.size_push, Array.size_setIfInBounds] at hlt
      rcases Nat.lt_succ_iff_lt_or_eq.mp hlt with hlt | rfl
      · rw [getElem?_extendRows_of_lt hlt] at hrow
        split at hrow
        · rename_i hi
          subst hi
          obtain rfl := Option.some.inj hrow
          rw [if_pos rfl, ← ih hparent]
          rfl
        · rename_i hi
          rw [if_neg (Ne.symm hi), List.append_nil, ih hrow]
      · -- nothing can name the new row as its parent yet
        rw [getElem?_extendRows_size] at hrow
        obtain rfl := Option.some.inj hrow
        have hbefore : parent ≠ t.rows.size :=
          Nat.ne_of_lt (Array.getElem?_eq_some_iff.mp hparent).1
        rw [if_neg hbefore, List.append_nil, eq_comm, List.filter_eq_nil_iff]
        intro j hj hname
        have hlater := h.lt_of_parent? (of_decide_eq_true hname)
        exact Nat.lt_asymm hlater (List.mem_range.mp hj)

/-- The rows that name a row as their parent are its children. -/
theorem mem_children_of_row_iff (h : Built t) {i : Nat} {row : Row} (hrow : t.rows[i]? = some row)
    {c : Nat} : c ∈ row.children ↔ t.parent? c = some i := by
  rw [h.children_eq hrow, List.mem_filter, List.mem_range, decide_eq_true_eq]
  exact ⟨And.right, fun hparent => ⟨lt_size_of_parent? hparent, hparent⟩⟩

/-! ## Tokens -/

/-- No row that carries a token has children. -/
theorem children_eq_nil (h : Built t) {i : Nat} {row : Row} (hrow : t.rows[i]? = some row)
    (htoken : row.token?.isSome = true) : row.children = [] := by
  induction h generalizing i row with
  | singleton rule =>
      cases i with
      | zero =>
          obtain rfl := Option.some.inj hrow
          rfl
      | succ i => simp [NodeTable.singleton] at hrow
  | push h hpush ih =>
      rcases row_of_push hpush hrow with rfl | ⟨old, -, hnone, rfl⟩ | hold
      · rfl
      · have hsome : old.token?.isSome = true := htoken
        rw [hnone] at hsome
        cases hsome
      · exact ih hold htoken

theorem tokensAtLeaves (h : Built t) : Outline.TokensAtLeaves t.tree.outline := by
  refine row_induction t (P := fun i => Outline.TokensAtLeaves (t.subtree i).outline) ?_ h.size_pos
  intro i row hrow ih
  rw [outline_of_row hrow]
  apply Outline.TokensAtLeaves.node
  · intro htoken
    rw [h.children_eq_nil hrow htoken, List.map_nil]
  · intro o ho
    obtain ⟨c, hc, rfl⟩ := List.mem_map.mp ho
    exact ih c hc

/-- Terminals are the rows that carry a token, so nothing stands below them. -/
theorem terminalsAtLeaves (h : Built t) : t.tree.TerminalsAtLeaves := by
  refine row_induction t (P := fun i => (t.subtree i).TerminalsAtLeaves) ?_ h.size_pos
  intro i row hrow ih u hu hterminal
  rw [subtree_of_row hrow] at hu
  rcases Tree.mem_preorder_iff.mp hu with rfl | ⟨v, hv, hu⟩
  · rw [Tree.children_node, h.children_eq_nil hrow hterminal, List.map_nil]
  · obtain ⟨c, hc, rfl⟩ := List.mem_map.mp hv
    exact ih c hc u hu hterminal

/-- The first row is the root's: it has no parent and carries no token. -/
theorem exists_rootRow (h : Built t) :
    ∃ row, t.rows[0]? = some row ∧ row.parent? = none ∧ row.token? = none := by
  induction h with
  | singleton rule => exact ⟨_, rfl, rfl, rfl⟩
  | @push t t' parent _ _ h hpush ih =>
      obtain ⟨old, hparent, hnone, -, hrows⟩ := (push_eq_ok_iff _ _ _ _ _).mp hpush
      obtain ⟨row, hrow, habove, htoken⟩ := ih
      rw [hrows, getElem?_extendRows_of_lt h.size_pos]
      by_cases hroot : 0 = parent
      · subst hroot
        obtain rfl : row = old := Option.some.inj (hrow.symm.trans hparent)
        exact ⟨_, if_pos rfl, habove, hnone⟩
      · exact ⟨row, (if_neg hroot).trans hrow, habove, htoken⟩

/-- The root carries no token. -/
theorem token?_root (h : Built t) : t.tree.outline.token? = none := by
  obtain ⟨row, hrow, -, hnone⟩ := h.exists_rootRow
  rw [tree, outline_of_row hrow]
  exact hnone

end Built

end TreeAccord.NodeTable
