import TreeAccord.Tree.Table

/-! # What adding a node does to a table -/

namespace TreeAccord.NodeTable

theorem eq_of_rows_eq {t u : NodeTable} (h : t.rows = u.rows) : t = u := by
  cases t
  cases u
  cases h
  rfl

/-- Rows whose children stand in later rows make a table. -/
theorem forward_of_forall {rows : Array Row}
    (h : ∀ i : Fin rows.size, ∀ c ∈ rows[i].children, i < c ∧ c < rows.size) (i : Nat) (row : Row)
    (hrow : rows[i]? = some row) : ∀ c ∈ row.children, i < c ∧ c < rows.size := by
  obtain ⟨hi, rfl⟩ := Array.getElem?_eq_some_iff.mp hrow
  exact h ⟨i, hi⟩

/-- A node is accepted exactly below a row that exists and carries no token, while there are row
numbers left. -/
theorem push_eq_ok_iff (t t' : NodeTable) (parent : Nat) (rule : String) (token? : Option Token) :
    t.push parent rule token? = .ok t' ↔
      ∃ row, t.rows[parent]? = some row ∧ row.token? = none ∧ t.size < capacity ∧
        t'.rows = extendRows t.rows parent row { rule, token?, parent? := some parent } := by
  unfold push
  split
  · rename_i hnone
    simp [hnone]
  · rename_i parentRow hsome
    have hrow (P : Row → Prop) : (∃ row, t.rows[parent]? = some row ∧ P row) ↔ P parentRow := by
      rw [hsome]
      simp
    rw [hrow]
    cases htoken : parentRow.token? with
    | some token => simp
    | none =>
        simp only [Option.isSome_none, Bool.false_eq_true, if_false, true_and]
        split
        · rename_i hsize
          simp only [hsize, true_and, Except.ok.injEq]
          constructor
          · rintro rfl
            rfl
          · intro hrows
            exact eq_of_rows_eq hrows.symm
        · rename_i hsize
          simp [hsize]

theorem exists_push_eq_ok {t : NodeTable} {parent : Nat} {row : Row}
    (hrow : t.rows[parent]? = some row) (htoken : row.token? = none) (hsize : t.size < capacity)
    (rule : String) (token? : Option Token) :
    ∃ t', t.push parent rule token? = .ok t' ∧
      t'.rows = extendRows t.rows parent row { rule, token?, parent? := some parent } := by
  let node : Row := { rule, token?, parent? := some parent }
  let grown : NodeTable :=
    ⟨extendRows t.rows parent row node, extendRows_forward t.forward hrow rfl⟩
  refine ⟨grown, ?_, rfl⟩
  rw [push_eq_ok_iff]
  exact ⟨row, hrow, htoken, hsize, rfl⟩

theorem push_eq_unknownParent {t : NodeTable} {parent : Nat} (hrow : t.rows[parent]? = none)
    (rule : String) (token? : Option Token) :
    t.push parent rule token? = .error (.unknownParent parent) := by
  unfold push
  split
  · rfl
  · rename_i parentRow hsome
    rw [hrow] at hsome
    cases hsome

/-- A node below such a row is refused only when the row numbers are used up. -/
theorem push_eq_full {t : NodeTable} {parent : Nat} {row : Row}
    (hrow : t.rows[parent]? = some row) (htoken : row.token? = none) (hfull : capacity ≤ t.size)
    (rule : String) (token? : Option Token) : t.push parent rule token? = .error .full := by
  unfold push
  split
  · rename_i hnone
    rw [hnone] at hrow
    cases hrow
  · rename_i parentRow hsome
    obtain rfl := Option.some.inj (hsome.symm.trans hrow)
    rw [htoken, if_neg (by simp), if_neg (Nat.not_lt.mpr hfull)]

/-- A node is refused exactly below a row that does not exist or carries a token, or when the row
numbers are used up. -/
theorem push_refused_iff (t : NodeTable) (parent : Nat) (rule : String) (token? : Option Token) :
    (∃ refusal, t.push parent rule token? = .error refusal) ↔
      t.size ≤ parent ∨ t.isToken parent = true ∨ capacity ≤ t.size := by
  unfold push
  split
  · rename_i hnone
    simp [Array.getElem?_eq_none_iff.mp hnone, NodeTable.size]
  · rename_i row hsome
    have hexists : ¬t.size ≤ parent := Nat.not_le.mpr (Array.getElem?_eq_some_iff.mp hsome).1
    have htoken : t.isToken parent = row.token?.isSome := by
      rw [isToken, row?, hsome, Option.any_some]
    rw [htoken]
    cases row.token? with
    | some token => simp
    | none =>
        by_cases hroom : t.size < capacity
        · simp [hroom, hexists]
        · simp [hroom, Nat.not_lt.mp hroom]

theorem getElem?_extendRows_of_lt {rows : Array Row} {i : Nat} (hi : i < rows.size) (parent : Nat)
    (parentRow node : Row) :
    (extendRows rows parent parentRow node)[i]? =
      if i = parent then some { parentRow with children := parentRow.children ++ [rows.size] }
      else rows[i]? := by
  rw [extendRows, Array.getElem?_push_lt (by simpa using hi), ← Array.getElem?_eq_getElem,
    Array.getElem?_setIfInBounds]
  by_cases hparent : parent = i
  · simp [hparent, hi]
  · simp [hparent, Ne.symm hparent]

theorem getElem?_extendRows_size (rows : Array Row) (parent : Nat) (parentRow node : Row) :
    (extendRows rows parent parentRow node)[rows.size]? = some node := by
  rw [extendRows, Array.getElem?_push, Array.size_setIfInBounds, if_pos rfl]

/-- After a node is added, the new row is at the end, the parent's row lists one child more, and all
other rows are as before. -/
theorem row?_of_push {t t' : NodeTable} {parent : Nat} {rule : String} {token? : Option Token}
    (hpush : t.push parent rule token? = .ok t') (i : Nat) :
    t'.row? i =
      if i = t.size then some { rule, token?, parent? := some parent }
      else if i = parent then
        (t.row? i).map fun row => { row with children := row.children ++ [t.size] }
      else t.row? i := by
  obtain ⟨old, hparent, -, -, hrows⟩ := (push_eq_ok_iff _ _ _ _ _).mp hpush
  rw [row?, row?, hrows]
  rcases Nat.lt_trichotomy i t.size with hlt | rfl | hgt
  · rw [getElem?_extendRows_of_lt hlt, if_neg (Nat.ne_of_lt hlt)]
    by_cases hi : i = parent
    · rw [if_pos hi, if_pos hi, hi, hparent]
      rfl
    · rw [if_neg hi, if_neg hi]
  · rw [if_pos rfl, NodeTable.size, getElem?_extendRows_size]
  · have hbefore : parent < t.size := (Array.getElem?_eq_some_iff.mp hparent).1
    have hsize : (extendRows t.rows parent old { rule, token?, parent? := some parent }).size ≤ i := by
      rw [extendRows, Array.size_push, Array.size_setIfInBounds]
      exact hgt
    rw [if_neg (Nat.ne_of_gt hgt), if_neg (Nat.ne_of_gt (Nat.lt_trans hbefore hgt)),
      Array.getElem?_eq_none hsize, Array.getElem?_eq_none (Nat.le_of_lt hgt)]

/-- A row after a node is added is the new node's, the parent's with one child more, or an old
one. -/
theorem row_of_push {t t' : NodeTable} {parent i : Nat} {rule : String} {token? : Option Token}
    {row : Row} (hpush : t.push parent rule token? = .ok t') (hrow : t'.rows[i]? = some row) :
    row = { rule, token?, parent? := some parent } ∨
      (∃ old, t.rows[parent]? = some old ∧ old.token? = none ∧
        row = { old with children := old.children ++ [t.size] }) ∨
      t.rows[i]? = some row := by
  obtain ⟨old, hparent, hnone, -, -⟩ := (push_eq_ok_iff _ _ _ _ _).mp hpush
  rw [← row?, row?_of_push hpush] at hrow
  split at hrow
  · exact .inl (Option.some.inj hrow).symm
  split at hrow
  · rename_i hi
    rw [hi, row?, hparent] at hrow
    exact .inr (.inl ⟨old, hparent, hnone, (Option.some.inj hrow).symm⟩)
  · exact .inr (.inr hrow)

/-- The new row's parent is the one it was added to, and all others keep theirs. -/
theorem parent?_of_push {t t' : NodeTable} {parent : Nat} {rule : String} {token? : Option Token}
    (hpush : t.push parent rule token? = .ok t') (i : Nat) :
    t'.parent? i = if i = t.size then some parent else t.parent? i := by
  rw [parent?, parent?, row?_of_push hpush]
  split
  · rfl
  split
  · cases t.row? i <;> rfl
  · rfl

theorem size_of_push {t t' : NodeTable} {parent : Nat} {rule : String} {token? : Option Token}
    (hpush : t.push parent rule token? = .ok t') : t'.size = t.size + 1 := by
  obtain ⟨old, -, -, -, hrows⟩ := (push_eq_ok_iff _ _ _ _ _).mp hpush
  rw [NodeTable.size, hrows, extendRows, Array.size_push, Array.size_setIfInBounds, NodeTable.size]

/-- The rows around the parent stay as they are; the parent gains a child, and the new row stands
at the end. -/
theorem toList_extendRows {rows : Array Row} {front back : List Row} {parentRow : Row}
    (h : rows.toList = front ++ parentRow :: back) (node : Row) :
    (extendRows rows front.length parentRow node).toList =
      front ++ { parentRow with children := parentRow.children ++ [rows.size] } :: back
        ++ [node] := by
  rw [extendRows, Array.toList_push, Array.toList_setIfInBounds, h]
  simp

/-! ## The tree at a row -/

/-- Children stand in later rows, so what holds of a row whenever it holds of its children holds of
all rows. -/
theorem row_induction (t : NodeTable) {P : Nat → Prop}
    (step : ∀ i row, t.rows[i]? = some row → (∀ c ∈ row.children, P c) → P i) {i : Nat}
    (hi : i < t.size) : P i := by
  have hrow : t.rows[i]? = some t.rows[i] := Array.getElem?_eq_getElem hi
  apply step i _ hrow
  intro c hc
  have hforward := t.forward i _ hrow c hc
  exact row_induction t step hforward.2
termination_by t.size - i
decreasing_by
  have hsize : t.size = t.rows.size := rfl
  omega

/-- A row denotes a node whose children are denoted by the rows of its list. -/
theorem subtree_of_row {t : NodeTable} {i : Nat} {row : Row} (h : t.rows[i]? = some row) :
    t.subtree i =
      .node ⟨i, row.rule, row.token?.map Token.kind,
        match row.token? with
          | some token => token.text
          | none => Text.concat ((row.children.map t.subtree).map Tree.text),
        row.token?.isSome⟩ (row.children.map t.subtree) := by
  rw [subtree]
  split
  · rename_i hnone
    rw [hnone] at h
    cases h
  · rename_i row' hsome
    rw [hsome] at h
    obtain rfl := Option.some.inj h
    cases row'.token? with
    | none => simp only [List.attach_map_val]
    | some token => simp only [List.attach_map_val]

end TreeAccord.NodeTable
