import TreeAccord.Proofs.Outline.Basic

/-! # The right edge of an outline

A dump is read line by line, and each line adds a leaf to an open node: one that stands on the right
edge. Adding a child there changes one row, puts the child's rows at the end and lays it out
last. -/

namespace TreeAccord.Outline

/-- The node `m` stands on the right edge of an outline, at a depth and with a number of nodes
before it. -/
inductive OnEdge : Outline → Nat → Nat → Outline → Prop where
  | root (o : Outline) : OnEdge o 0 0 o
  | last (rule : String) (token? : Option Token) (init : List Outline) {o m : Outline}
      {depth before : Nat} (h : OnEdge o depth before m) :
      OnEdge (node rule token? (init ++ [o])) (depth + 1) (1 + forestSize init + before) m

/-- Adds a last child to the node of the given depth on the right edge. -/
def graft : Nat → Outline → Outline → Outline
  | 0, child, node rule token? children => node rule token? (children ++ [child])
  | depth + 1, child, node rule token? children =>
    node rule token? (children.dropLast ++ (children.getLast?.map (graft depth child)).toList)

@[simp] theorem graft_zero (child : Outline) (rule : String) (token? : Option Token)
    (children : List Outline) :
    graft 0 child (node rule token? children) = node rule token? (children ++ [child]) := rfl

@[simp] theorem graft_succ (depth : Nat) (child : Outline) (rule : String) (token? : Option Token)
    (init : List Outline) (o : Outline) :
    graft (depth + 1) child (node rule token? (init ++ [o])) =
      node rule token? (init ++ [graft depth child o]) := by
  simp [graft]

/-- The rows of the last child are the last rows. -/
theorem getElem?_rows_last (parent? : Option Nat) (first : Nat) (rule : String)
    (token? : Option Token) (init : List Outline) (o : Outline) (i : Nat) :
    ((node rule token? (init ++ [o])).rows parent? first)[1 + forestSize init + i]? =
      (o.rows (some first) (first + 1 + forestSize init))[i]? := by
  have hi : 1 + forestSize init + i = forestSize init + i + 1 := by omega
  rw [rows, hi, List.getElem?_cons_succ, forestRows_append,
    ← length_forestRows (some first) (first + 1) init, List.getElem?_append_right (by omega)]
  simp [forestRows]

namespace OnEdge

variable {o m : Outline} {depth before : Nat}

/-- Grafting lays out the new child after all other nodes. -/
theorem layout_graft (h : OnEdge o depth before m) (child : Outline) (start : Nat) :
    (graft depth child o).layout start = o.layout start ++ child.layout (start + depth + 1) := by
  induction h generalizing start with
  | root o =>
      obtain ⟨rule, token?, children⟩ := o
      simp [layout, forestLayout]
  | last rule token? init h ih =>
      simp [layout, forestLayout, ih, Nat.add_comm, Nat.add_left_comm]

/-- The new child is the end of the right edge. -/
theorem graft_last (h : OnEdge o depth before m) (child : Outline) :
    OnEdge (graft depth child o) (depth + 1) o.size child := by
  induction h with
  | root o =>
      obtain ⟨rule, token?, children⟩ := o
      exact last rule token? children (root child)
  | last rule token? init h ih =>
      rw [graft_succ]
      have hlast := last rule token? init ih
      simpa [size, Nat.add_assoc] using hlast

/-- The row of an edge node, and the rows after a child is grafted to it: its list of children
grows by the number of the new row, and the rows of the child follow at the end. -/
theorem rows_graft (h : OnEdge o depth before m) (parent? : Option Nat) (first : Nat)
    (child : Outline) :
    ∃ front row back, o.rows parent? first = front ++ row :: back ∧ front.length = before ∧
      row.rule = m.rule ∧ row.token? = m.token? ∧
      (graft depth child o).rows parent? first =
        front ++ { row with children := row.children ++ [first + o.size] } :: back
          ++ child.rows (some (first + before)) (first + o.size) := by
  induction h generalizing parent? first with
  | root o =>
      obtain ⟨rule, token?, children⟩ := o
      refine ⟨[], _, _, rfl, rfl, rfl, rfl, ?_⟩
      simp [rows, forestRows, rootRows, size, Nat.add_assoc]
  | last rule token? init h ih =>
      rename_i o m depth before
      obtain ⟨front, row, back, hrows, hlength, hrule, htoken, hgraft⟩ :=
        ih (some first) (first + 1 + forestSize init)
      refine ⟨⟨rule, token?, parent?, rootRows (first + 1) (init ++ [o])⟩ ::
        forestRows (some first) (first + 1) init ++ front, row, back, ?_, ?_, hrule, htoken, ?_⟩
      · simp [rows, forestRows, hrows]
      · simp [length_forestRows, hlength]
        omega
      · have hfirst : first + (1 + forestSize init + before) =
            first + 1 + forestSize init + before := by omega
        have hsize : first + (node rule token? (init ++ [o])).size =
            first + 1 + forestSize init + o.size := by
          simp [size, Nat.add_assoc]
        rw [hfirst, hsize, graft_succ]
        simp [rows, forestRows, rootRows, hgraft]

/-- Above an edge node stands another one, which has children and whose row is its parent's. -/
theorem exists_above (h : OnEdge o (depth + 1) before m) (parent? : Option Nat) (first : Nat) :
    ∃ above upper row, OnEdge o depth above upper ∧ upper.children ≠ [] ∧
      (o.rows parent? first)[before]? = some row ∧ row.parent? = some (first + above) := by
  induction depth generalizing o before parent? first with
  | zero =>
      cases h with
      | last rule token? init h =>
          cases h with
          | root m =>
              obtain ⟨rule', token?', children'⟩ := m
              let row : Row :=
                ⟨rule', token?', some first, rootRows (first + 1 + forestSize init + 1) children'⟩
              refine ⟨0, _, row, root _, by simp [Outline.children], ?_, rfl⟩
              rw [getElem?_rows_last]
              rfl
  | succ depth ih =>
      cases h with
      | last rule token? init h =>
          obtain ⟨above, upper, row, hedge, hne, hrow, hparent⟩ :=
            ih h (some first) (first + 1 + forestSize init)
          refine ⟨_, upper, row, last rule token? init hedge, hne, ?_, ?_⟩
          · rw [getElem?_rows_last, hrow]
          · rw [hparent]
            congr 1
            omega

end OnEdge

/-! ## Tokens at leaves -/

theorem TokensAtLeaves.of_onEdge {o m : Outline} {depth before : Nat} (ho : TokensAtLeaves o)
    (h : OnEdge o depth before m) : TokensAtLeaves m := by
  induction h with
  | root o => exact ho
  | last rule token? init h ih =>
      cases ho with
      | node leaf below => exact ih (below _ (by simp))

theorem TokensAtLeaves.graft {o m child : Outline} {depth before : Nat} (ho : TokensAtLeaves o)
    (h : OnEdge o depth before m) (hm : m.token? = none) (hchild : TokensAtLeaves child) :
    TokensAtLeaves (graft depth child o) := by
  induction h with
  | root o =>
      cases ho with
      | @node rule token? children leaf below =>
          have hnone : token? = none := hm
          apply TokensAtLeaves.node
          · simp [hnone]
          · intro o ho
            rcases List.mem_append.mp ho with ho | ho
            · exact below o ho
            · exact List.mem_singleton.mp ho ▸ hchild
  | last rule token? init h ih =>
      rename_i o m depth before
      cases ho with
      | node leaf below =>
          rw [graft_succ]
          apply TokensAtLeaves.node
          · intro htoken
            simpa using leaf htoken
          · intro u hu
            rcases List.mem_append.mp hu with hu | hu
            · exact below u (by simp [hu])
            · exact List.mem_singleton.mp hu ▸ ih (below o (by simp)) hm

end TreeAccord.Outline

