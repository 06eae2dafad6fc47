import TreeAccord.View.Exposure
import TreeAccord.Proofs.Tree.Preorder

/-! # What a cursor yields

A cursor holds what is left of a wrapper and the children after it. The nodes still to come are a
function of the two, and each step yields the first of them. -/

namespace TreeAccord.View

/-! ## The nodes still to come -/

namespace Cursor

/-- The nodes that a cursor has not yielded yet, from left to right. -/
def rest (p : Side) (cursor : Cursor) : List Tree :=
  (cursor.inner.filter (solid p)).map (core p) ++
    (cursor.outer.filter (solid p)).flatMap (standIns p cursor.parent)

theorem rest_before (p : Side) (t : Tree) : (before t).rest p = exposed p t := by
  simp [rest, before, exposed]

/-- Dropping what is not solid loses no solid tree. -/
theorem filter_solid_dropWhile (p : Side) (ts : List Tree) :
    (ts.dropWhile fun t => !solid p t).filter (solid p) = ts.filter (solid p) := by
  induction ts with
  | nil => rfl
  | cons t ts ih =>
      cases h : solid p t
      · simpa [h] using ih
      · simp [h]

/-- The head of what remains after the dropping is solid. -/
theorem solid_of_dropWhile_eq_cons {p : Side} {ts us : List Tree} {u : Tree}
    (h : (ts.dropWhile fun t => !solid p t) = u :: us) : solid p u = true := by
  have hu := List.head?_dropWhile_not (fun t => !solid p t) ts
  rw [h] at hu
  simpa using hu

/-- Among whole children, a cursor finds the first stand-in of the first solid child that has
any. -/
theorem enter_rest (p : Side) (parent : String) (ts : List Tree) :
    (enter p parent ts).1 = ((ts.filter (solid p)).flatMap (standIns p parent)).head? ∧
      (enter p parent ts).2.rest p =
        ((ts.filter (solid p)).flatMap (standIns p parent)).tail := by
  induction ts with
  | nil => simp [enter, rest]
  | cons t ts ih =>
      rw [enter]
      cases hs : solid p t with
      | false => simpa [hs] using ih
      | true =>
          cases hw : transparent p (some parent) t with
          | false => simp [hs, hw, standIns, rest]
          | true =>
              have hf := filter_solid_dropWhile p t.children
              cases hd : t.children.dropWhile fun j => !solid p j with
              | nil =>
                  rw [hd] at hf
                  simpa [hs, hw, hd, standIns, ← hf] using ih
              | cons j js =>
                  rw [hd, List.filter_cons, solid_of_dropWhile_eq_cons hd, if_pos rfl] at hf
                  simp [hs, hw, standIns, ← hf, rest]

/-- A step yields the first of the nodes still to come and leaves the others. -/
theorem advance_rest (p : Side) (cursor : Cursor) :
    (cursor.advance p).1 = (cursor.rest p).head? ∧
      (cursor.advance p).2.rest p = (cursor.rest p).tail := by
  have hf := filter_solid_dropWhile p cursor.inner
  rw [advance]
  cases hd : cursor.inner.dropWhile fun j => !solid p j with
  | nil =>
      rw [hd] at hf
      simpa [rest, ← hf] using enter_rest p cursor.parent cursor.outer
  | cons j js =>
      rw [hd, List.filter_cons, solid_of_dropWhile_eq_cons hd, if_pos rfl] at hf
      simp [rest, ← hf]

theorem rest_eq_nil_of_advance {p : Side} {cursor next : Cursor}
    (h : cursor.advance p = (none, next)) : cursor.rest p = [] := by
  have hfirst := (advance_rest p cursor).1
  rw [h] at hfirst
  exact List.head?_eq_none_iff.mp hfirst.symm

theorem rest_eq_cons_of_advance {p : Side} {cursor next : Cursor} {t : Tree}
    (h : cursor.advance p = (some t, next)) : cursor.rest p = t :: next.rest p := by
  obtain ⟨hfirst, hothers⟩ := advance_rest p cursor
  rw [h] at hfirst hothers
  cases hrest : cursor.rest p with
  | nil => simp [hrest] at hfirst
  | cons u us =>
      rw [hrest] at hfirst hothers
      rw [hothers, Option.some.inj hfirst]
      rfl

end Cursor

/-! ## Exposed nodes lie below -/

/-- The core of a node is the node itself or stands below it. -/
theorem core_mem_preorder (p : Side) (t : Tree) : core p t ∈ t.preorder := by
  rw [core_eq]
  split
  · cases hf : firstVisible? p t with
    | none => exact t.mem_preorder_self
    | some u =>
        have hu : u ∈ t.children := List.mem_of_find?_eq_some hf
        exact Tree.mem_preorder_iff.mpr (.inr ⟨u, hu, core_mem_preorder p u⟩)
  · exact t.mem_preorder_self
termination_by t.size
decreasing_by exact Tree.size_lt_of_mem_children hu

/-- What stands for a child is a node of that child. -/
theorem mem_preorder_of_mem_standIns {p : Side} {parent : String} {t u : Tree}
    (h : u ∈ standIns p parent t) : u ∈ t.preorder := by
  unfold standIns at h
  split at h
  · obtain ⟨j, hj, rfl⟩ := List.mem_map.mp h
    exact Tree.mem_preorder_iff.mpr (.inr ⟨j, (List.mem_filter.mp hj).1, core_mem_preorder p j⟩)
  · obtain rfl := List.mem_singleton.mp h
    exact core_mem_preorder p t

/-- An exposed node is a node of some child. -/
theorem exists_child_of_mem_exposed {p : Side} {t u : Tree} (h : u ∈ exposed p t) :
    ∃ k ∈ t.children, u ∈ k.preorder := by
  obtain ⟨k, hk, hu⟩ := List.mem_flatMap.mp h
  exact ⟨k, (List.mem_filter.mp hk).1, mem_preorder_of_mem_standIns hu⟩

theorem mem_preorder_of_mem_exposed {p : Side} {t u : Tree} (h : u ∈ exposed p t) :
    u ∈ t.preorder :=
  Tree.mem_preorder_iff.mpr (.inr (exists_child_of_mem_exposed h))

theorem size_lt_of_mem_exposed {p : Side} {t u : Tree} (h : u ∈ exposed p t) :
    u.size < t.size := by
  obtain ⟨k, hk, hu⟩ := exists_child_of_mem_exposed h
  exact Nat.lt_of_le_of_lt (Tree.size_le_of_mem_preorder hu) (Tree.size_lt_of_mem_children hk)

/-- What holds of a tree whenever it holds of the nodes exposed below it holds of all trees. -/
theorem exposed_induction (p : Side) {motive : Tree → Prop}
    (step : ∀ t, (∀ u ∈ exposed p t, motive u) → motive t) (t : Tree) : motive t :=
  step t fun u _ => exposed_induction p step u
termination_by t.size
decreasing_by exact size_lt_of_mem_exposed ‹_›

end TreeAccord.View
