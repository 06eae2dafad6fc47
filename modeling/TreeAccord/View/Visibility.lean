import TreeAccord.Config.Side
import TreeAccord.Tree.Basic

/-!
# What a side sees

A node is noise by its rule, the kind of its token or its text, and a block is no more than noise
when nothing visible stands below it. All else is visible. A wrapper is transparent: it stands for
its own children.
-/

namespace TreeAccord.View

/-- The three tests for noise. Texts are fetched only if the side names any. -/
def isNoise (p : Side) (l : Label) : Bool :=
  p.isNoiseRule l.rule || l.kind?.any p.isNoiseKind || (p.hasNoiseTexts && p.isNoiseText l.text)

/-- Whether a visible terminal is reached from one of the trees through visible nodes alone. A block
counts for what stands below it, so it is no terminal itself. -/
def holdsTerminal (p : Side) : List Tree → Bool
  | [] => false
  | .node l cs :: ts =>
    !isNoise p l && (!p.isBlockRule l.rule && l.terminal || holdsTerminal p cs)
      || holdsTerminal p ts

def visible (p : Side) (t : Tree) : Bool :=
  !isNoise p t.label && (!p.isBlockRule t.rule || holdsTerminal p t.children)

/-- Whether the node is a transparent wrapper below a node of rule `parent?`. -/
def transparent (p : Side) (parent? : Option String) (t : Tree) : Bool :=
  p.hasWrappers && p.isWrapper t.rule parent?

def firstVisible? (p : Side) (t : Tree) : Option Tree := t.children.find? (visible p)

/-- A terminal is found at a visible tree or below it. -/
theorem holdsTerminal_cons (p : Side) (t : Tree) (ts : List Tree) :
    holdsTerminal p (t :: ts) =
      (visible p t && (t.terminal || holdsTerminal p t.children) || holdsTerminal p ts) := by
  obtain ⟨l, cs⟩ := t
  rw [holdsTerminal]
  simp only [visible, Tree.label_node, Tree.children_node, Tree.rule, Tree.terminal]
  cases isNoise p l <;> cases p.isBlockRule l.rule <;> cases l.terminal <;>
    cases holdsTerminal p cs <;> rfl

theorem holdsTerminal_eq_any (p : Side) (ts : List Tree) :
    holdsTerminal p ts =
      ts.any fun t => visible p t && (t.terminal || holdsTerminal p t.children) := by
  induction ts with
  | nil => rw [holdsTerminal]; rfl
  | cons t ts ih => rw [holdsTerminal_cons, ih]; rfl

end TreeAccord.View
