import TreeAccord.View.Visibility

/-!
# Arity

The number of children that the other vocabulary would see below a node. Every visible child
counts once, a wrapper as many times as it has children of its own, and tokens that the other side
splits, fuses or folds count more or less. Corrections may outweigh the children, so the sum is
taken over the integers and cut off at zero.
-/

namespace TreeAccord.View

/-- What the text of a node adds to its parent's arity, given its right neighbour. -/
def textCorrection (p : Side) (t : Tree) (next? : Option Tree) : Int :=
  if p.inspectsText then
    (p.extraTokens t.text t.terminal : Int)
      - (if next?.any fun next => p.fuses t.text next.text then 1 else 0)
      - (if t.terminal && next?.any fun next => p.foldsInto t.text next.rule then 1 else 0)
  else 0

mutual
def arity (p : Side) : Tree → Nat
  | .node l cs => (tally p l.rule cs).toNat

/-- The contributions of children to the arity of a node of rule `parent`. -/
def tally (p : Side) (parent : String) : List Tree → Int
  | [] => 0
  | t :: ts =>
    1 - (if visible p t then 0 else 1)
      + (if transparent p (some parent) t then (arity p t : Int) - 1 else 0)
      + textCorrection p t ts.head?
      + tally p parent ts
end

theorem arity_eq (p : Side) (t : Tree) : arity p t = (tally p t.rule t.children).toNat := by
  cases t
  rw [arity]
  rfl

theorem tally_cons (p : Side) (parent : String) (t : Tree) (ts : List Tree) :
    tally p parent (t :: ts) =
      1 - (if visible p t then 0 else 1)
        + (if transparent p (some parent) t then (arity p t : Int) - 1 else 0)
        + textCorrection p t ts.head?
        + tally p parent ts := by
  rw [tally]

@[simp] theorem tally_nil (p : Side) (parent : String) : tally p parent [] = 0 := by
  rw [tally]

/-- A node without children has arity zero. -/
theorem arity_eq_zero_of_children_eq_nil {p : Side} {t : Tree} (h : t.children = []) :
    arity p t = 0 := by
  simp [arity_eq, h]

end TreeAccord.View
