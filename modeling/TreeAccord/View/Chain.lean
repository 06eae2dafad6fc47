import TreeAccord.View.Arity

/-!
# Chains of single children

A node of arity one stands for its first visible child. Following such nodes down leads to the
core of a node. A node is hollow, and adds no structure, when its rule always names a list or when
the chain ends in nothing.
-/

namespace TreeAccord.View

mutual
def hollow (p : Side) : Tree → Bool
  | .node l cs =>
    p.isListRule l.rule ||
      match arity p (.node l cs) with
      | 0 => true
      | 1 => firstHollow p cs
      | _ => false

/-- Whether the first visible tree is hollow, or none is visible. -/
def firstHollow (p : Side) : List Tree → Bool
  | [] => true
  | t :: ts => if visible p t then hollow p t else firstHollow p ts
end

mutual
/-- The end of the chain of single children that begins at a node. -/
def core (p : Side) : Tree → Tree
  | .node l cs => if arity p (.node l cs) = 1 then firstCore p (.node l cs) cs else .node l cs

/-- The core of the first visible tree, or `self` if none is visible. -/
def firstCore (p : Side) (self : Tree) : List Tree → Tree
  | [] => self
  | t :: ts => if visible p t then core p t else firstCore p self ts
end

/-- Whether a node is met by a comparison at all. -/
def solid (p : Side) (t : Tree) : Bool := visible p t && !hollow p t

theorem firstHollow_eq (p : Side) (ts : List Tree) :
    firstHollow p ts = (ts.find? (visible p)).all (hollow p) := by
  induction ts with
  | nil => rw [firstHollow]; rfl
  | cons t ts ih =>
    rw [firstHollow, List.find?_cons]
    cases h : visible p t
    · simp [ih]
    · simp

theorem hollow_eq (p : Side) (t : Tree) :
    hollow p t = (p.isListRule t.rule ||
      match arity p t with
      | 0 => true
      | 1 => (firstVisible? p t).all (hollow p)
      | _ => false) := by
  cases t
  rw [hollow, firstHollow_eq]
  rfl

theorem firstCore_eq (p : Side) (self : Tree) (ts : List Tree) :
    firstCore p self ts = ((ts.find? (visible p)).map (core p)).getD self := by
  induction ts with
  | nil => rw [firstCore]; rfl
  | cons t ts ih =>
    rw [firstCore, List.find?_cons]
    cases h : visible p t
    · simp [ih]
    · simp

theorem core_eq (p : Side) (t : Tree) :
    core p t =
      if arity p t = 1 then ((firstVisible? p t).map (core p)).getD t else t := by
  cases t
  rw [core, firstCore_eq]
  rfl

mutual
theorem size_core_le (p : Side) : ∀ t : Tree, (core p t).size ≤ t.size
  | .node l cs => by
    rw [core]
    split
    · have := size_firstCore_le p (.node l cs) cs
      rw [Tree.size] at *
      omega
    · exact Nat.le_refl _

theorem size_firstCore_le (p : Side) (self : Tree) :
    ∀ ts : List Tree, (firstCore p self ts).size ≤ max self.size (Tree.forestSize ts)
  | [] => by rw [firstCore]; omega
  | t :: ts => by
    rw [firstCore]
    split
    · have := size_core_le p t
      simp only [Tree.forestSize_cons]
      omega
    · have := size_firstCore_le p self ts
      simp only [Tree.forestSize_cons]
      omega
end

end TreeAccord.View
