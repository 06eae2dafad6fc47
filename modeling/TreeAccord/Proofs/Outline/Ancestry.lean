import TreeAccord.Proofs.Outline.Depths

/-! # Depths and parents

Stored as rows, a node names the row of its parent; laid out as lines, it has a depth. The depths
alone tell the parents: a node hangs below the last node before it that lies one level higher. -/

namespace TreeAccord

/-- In a list of depths, position `p` is the last one before `i` that lies one level higher. -/
structure LastAbove (depths : List Nat) (i p : Nat) : Prop where
  lt : p < i
  step : ∃ d, depths[p]? = some d ∧ depths[i]? = some (d + 1)
  last : ∀ j, p < j → j < i → depths[j]? ≠ depths[p]?

namespace LastAbove

variable {depths : List Nat} {i p : Nat}

theorem cons (h : LastAbove depths i p) (d : Nat) : LastAbove (d :: depths) (i + 1) (p + 1) where
  lt := Nat.succ_lt_succ h.lt
  step := h.step
  last j hp hi := by
    obtain ⟨j, rfl⟩ := Nat.exists_eq_add_one_of_ne_zero (Nat.ne_of_gt (Nat.zero_lt_of_lt hp))
    exact h.last j (Nat.lt_of_succ_lt_succ hp) (Nat.lt_of_succ_lt_succ hi)

/-- A position above all that follow is the last one above each of them that is one level lower. -/
theorem head {d : Nat} (hi : depths[i]? = some (d + 1)) (above : ∀ e ∈ depths, d < e) :
    LastAbove (d :: depths) (i + 1) 0 where
  lt := Nat.succ_pos i
  step := ⟨d, rfl, hi⟩
  last j hp _ := by
    obtain ⟨j, rfl⟩ := Nat.exists_eq_add_one_of_ne_zero (Nat.ne_of_gt hp)
    intro hj
    exact Nat.lt_irrefl d (above d (List.mem_of_getElem? hj))

theorem append_right (h : LastAbove depths i p) (later : List Nat) :
    LastAbove (depths ++ later) i p := by
  obtain ⟨d, hp, hi⟩ := h.step
  have hlt : i < depths.length := (List.getElem?_eq_some_iff.mp hi).1
  have hsame : ∀ j ≤ i, (depths ++ later)[j]? = depths[j]? := fun j hj =>
    List.getElem?_append_left (Nat.lt_of_le_of_lt hj hlt)
  refine ⟨h.lt, ⟨d, ?_, ?_⟩, fun j hj hji => ?_⟩
  · rw [hsame p (Nat.le_of_lt h.lt), hp]
  · rw [hsame i (Nat.le_refl i), hi]
  · rw [hsame j (Nat.le_of_lt hji), hsame p (Nat.le_of_lt h.lt)]
    exact h.last j hj hji

theorem append_left (h : LastAbove depths i p) (earlier : List Nat) :
    LastAbove (earlier ++ depths) (earlier.length + i) (earlier.length + p) := by
  induction earlier with
  | nil => simpa using h
  | cons d earlier ih =>
      have hcons := ih.cons d
      rw [List.length_cons, Nat.add_right_comm, Nat.add_right_comm earlier.length 1 p]
      exact hcons

end LastAbove

namespace Outline

/-- The depths of the lines of an outline. -/
def depths (start : Nat) (o : Outline) : List Nat := (o.layout start).map Placed.depth

def forestDepths (start : Nat) (os : List Outline) : List Nat :=
  (forestLayout start os).map Placed.depth

theorem depths_node (start : Nat) (rule : String) (token? : Option Token)
    (children : List Outline) :
    (node rule token? children).depths start = start :: forestDepths (start + 1) children := by
  rw [depths, layout, List.map_cons, forestDepths]

theorem forestDepths_cons (start : Nat) (o : Outline) (os : List Outline) :
    forestDepths start (o :: os) = o.depths start ++ forestDepths start os := by
  rw [forestDepths, forestLayout, List.map_append, depths, forestDepths]

theorem length_depths (start : Nat) (o : Outline) : (o.depths start).length = o.size := by
  rw [depths, List.length_map, length_layout]

theorem le_of_mem_forestDepths {start d : Nat} {os : List Outline}
    (h : d ∈ forestDepths start os) : start ≤ d := by
  obtain ⟨e, he, rfl⟩ := List.mem_map.mp h
  exact le_depth_of_mem_forestLayout he

theorem getElem?_depths_zero (start : Nat) (o : Outline) : (o.depths start)[0]? = some start := by
  obtain ⟨rule, token?, children⟩ := o
  rw [depths_node]
  rfl

/-! ## Parents -/

mutual
/-- Every row but the first one names the last row above it. -/
theorem parent?_of_rows (parent? : Option Nat) (first start : Nat) {i : Nat} {row : Row} :
    ∀ {o : Outline}, (o.rows parent? first)[i]? = some row →
      (i = 0 ∧ row.parent? = parent?) ∨
        ∃ p, row.parent? = some (first + p) ∧ LastAbove (o.depths start) i p
  | node rule token? children, h => by
    rw [rows] at h
    rw [depths_node]
    cases i with
    | zero =>
        obtain rfl := Option.some.inj h
        exact .inl ⟨rfl, rfl⟩
    | succ i =>
        right
        rw [List.getElem?_cons_succ] at h
        rcases parent?_of_forestRows (some first) (first + 1) (start + 1) h with
          ⟨hparent, hdepth⟩ | ⟨p, hparent, hlast⟩
        · exact ⟨0, hparent, .head hdepth fun e he => le_of_mem_forestDepths he⟩
        · refine ⟨p + 1, ?_, hlast.cons start⟩
          rw [hparent, Nat.add_assoc, Nat.add_comm 1 p]

/-- Rows of a forest name the last row above them too, and the roots of the forest name what the
whole forest hangs below. -/
theorem parent?_of_forestRows (parent? : Option Nat) (first start : Nat) {i : Nat} {row : Row} :
    ∀ {os : List Outline}, (forestRows parent? first os)[i]? = some row →
      (row.parent? = parent? ∧ (forestDepths start os)[i]? = some start) ∨
        ∃ p, row.parent? = some (first + p) ∧ LastAbove (forestDepths start os) i p
  | [], h => by simp [forestRows] at h
  | o :: os, h => by
    rw [forestRows] at h
    rw [forestDepths_cons]
    have hlength := o.length_depths start
    by_cases hi : i < o.size
    · rw [List.getElem?_append_left (by rwa [length_rows])] at h
      rcases parent?_of_rows parent? first start h with ⟨rfl, hparent⟩ | ⟨p, hparent, hlast⟩
      · refine .inl ⟨hparent, ?_⟩
        rw [List.getElem?_append_left (by rwa [hlength]), getElem?_depths_zero]
      · exact .inr ⟨p, hparent, hlast.append_right _⟩
    · obtain ⟨k, rfl⟩ := Nat.exists_eq_add_of_le (Nat.le_of_not_lt hi)
      rw [List.getElem?_append_right (by rw [length_rows]; omega), length_rows,
        Nat.add_sub_cancel_left] at h
      rcases parent?_of_forestRows parent? (first + o.size) start h with
        ⟨hparent, hdepth⟩ | ⟨p, hparent, hlast⟩
      · refine .inl ⟨hparent, ?_⟩
        rw [List.getElem?_append_right (by omega), hlength, Nat.add_sub_cancel_left, hdepth]
      · refine .inr ⟨o.size + p, ?_, ?_⟩
        · rw [hparent, Nat.add_assoc]
        · have happend := hlast.append_left (o.depths start)
          rwa [hlength] at happend
end

/-! ## Rules and tokens -/

mutual
/-- The rows and the lines of an outline show the same nodes in the same order. -/
theorem map_rows (parent? : Option Nat) (first start : Nat) : ∀ o : Outline,
    (o.rows parent? first).map (fun row => (row.rule, row.token?)) =
      (o.layout start).map fun e => (e.rule, e.token?)
  | node rule token? children => by
    rw [rows, layout, List.map_cons, List.map_cons, map_forestRows _ _ (start + 1)]

theorem map_forestRows (parent? : Option Nat) (first start : Nat) : ∀ os : List Outline,
    (forestRows parent? first os).map (fun row => (row.rule, row.token?)) =
      (forestLayout start os).map fun e => (e.rule, e.token?)
  | [] => rfl
  | o :: os => by
    rw [forestRows, forestLayout, List.map_append, List.map_append, map_rows _ _ start,
      map_forestRows _ _ start]
end

end Outline

end TreeAccord
