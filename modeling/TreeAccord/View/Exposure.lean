import TreeAccord.View.Chain

/-!
# Exposed nodes

What a comparison meets below a node: its solid children, each replaced by its core, where a
wrapper gives way to its own solid children. A cursor yields them one at a time. It keeps the
children that are still to come, and the rest of the wrapper it is in.
-/

namespace TreeAccord.View

/-- What stands for one solid child of a node of rule `parent`. -/
def standIns (p : Side) (parent : String) (t : Tree) : List Tree :=
  if transparent p (some parent) t then (t.children.filter (solid p)).map (core p) else [core p t]

/-- The nodes met below `t`, from left to right. -/
def exposed (p : Side) (t : Tree) : List Tree :=
  (t.children.filter (solid p)).flatMap (standIns p t.rule)

/-- The position of the first solid child at or after `start`, or the number of children. -/
def nextSolid (p : Side) (t : Tree) (start : Nat) : Nat :=
  if start < t.children.length then start + (t.children.drop start).findIdx (solid p)
  else t.children.length

structure Cursor where
  /-- The rule of the node whose children are walked. -/
  parent : String
  /-- What is left of the wrapper entered last. -/
  inner : List Tree
  /-- The children after it. -/
  outer : List Tree

namespace Cursor

/-- The cursor before the first child of a node. -/
def before (t : Tree) : Cursor := ⟨t.rule, [], t.children⟩

/-- Finds the next stand-in among whole children. -/
def enter (p : Side) (parent : String) : List Tree → Option Tree × Cursor
  | [] => (none, ⟨parent, [], []⟩)
  | t :: ts =>
    if !solid p t then enter p parent ts
    else if transparent p (some parent) t then
      match t.children.dropWhile fun j => !solid p j with
      | [] => enter p parent ts
      | j :: js => (some (core p j), ⟨parent, js, ts⟩)
    else (some (core p t), ⟨parent, [], ts⟩)

/-- The next exposed node, and the cursor behind it. -/
def advance (p : Side) (cursor : Cursor) : Option Tree × Cursor :=
  match cursor.inner.dropWhile fun j => !solid p j with
  | [] => enter p cursor.parent cursor.outer
  | j :: js => (some (core p j), ⟨cursor.parent, js, cursor.outer⟩)

/-- The nodes that a cursor may still meet, with all below them. -/
def weight (cursor : Cursor) : Nat :=
  Tree.forestSize cursor.inner + Tree.forestSize cursor.outer

theorem forestSize_dropWhile_le (f : Tree → Bool) (ts : List Tree) :
    Tree.forestSize (ts.dropWhile f) ≤ Tree.forestSize ts := by
  induction ts with
  | nil => simp
  | cons t ts ih =>
    rw [List.dropWhile_cons]
    split
    · simp only [Tree.forestSize_cons]
      omega
    · exact Nat.le_refl _

theorem weight_enter {p : Side} {parent : String} {ts : List Tree} {t : Tree} {next : Cursor}
    (h : enter p parent ts = (some t, next)) : t.size + next.weight ≤ Tree.forestSize ts := by
  induction ts with
  | nil => simp [enter] at h
  | cons u us ih =>
    rw [enter] at h
    simp only [Tree.forestSize_cons]
    split at h
    · have := ih h
      omega
    · split at h
      · split at h
        · have := ih h
          omega
        · rename_i j js hd
          cases h
          have hc := size_core_le p j
          have hs := forestSize_dropWhile_le (fun j => !solid p j) u.children
          rw [hd, Tree.forestSize_cons] at hs
          have hu := u.size_eq
          simp only [weight]
          omega
      · cases h
        have hc := size_core_le p u
        simp only [weight, Tree.forestSize_nil]
        omega

/-- An exposed node and what comes after it were ahead of the cursor. -/
theorem weight_advance {p : Side} {cursor next : Cursor} {t : Tree}
    (h : cursor.advance p = (some t, next)) : t.size + next.weight ≤ cursor.weight := by
  rw [advance] at h
  simp only [weight]
  split at h
  · have := weight_enter h
    simp only [weight] at this
    omega
  · rename_i j js hd
    cases h
    have hc := size_core_le p j
    have hs := forestSize_dropWhile_le (fun j => !solid p j) cursor.inner
    rw [hd, Tree.forestSize_cons] at hs
    simp only
    omega

theorem weight_before (t : Tree) : (before t).weight + 1 = t.size := by
  have := t.size_eq
  simp only [weight, before, Tree.forestSize_nil]
  omega

end Cursor

end TreeAccord.View
