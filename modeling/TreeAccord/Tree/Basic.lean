/-!
# Labelled trees

A parse tree as a comparison sees it. Each node carries a label and an ordered list of children;
the label says where the node stands in its source, which rule it belongs to, and what text it
covers.
-/

namespace TreeAccord

/-- What a node shows of itself. -/
structure Label where
  /-- The position of the node in the table or listing it comes from. -/
  row : Nat
  rule : String
  /-- The kind of its token, if it has one. -/
  kind? : Option String
  /-- The text that the node covers. -/
  text : String
  /-- Whether the node counts as a leaf of the grammar. -/
  terminal : Bool
deriving DecidableEq, Repr, Inhabited

inductive Tree where
  | node (label : Label) (children : List Tree)
deriving Inhabited

namespace Tree

def label : Tree → Label
  | .node l _ => l

def children : Tree → List Tree
  | .node _ cs => cs

def row (t : Tree) : Nat := t.label.row

def rule (t : Tree) : String := t.label.rule

def kind? (t : Tree) : Option String := t.label.kind?

def text (t : Tree) : String := t.label.text

def terminal (t : Tree) : Bool := t.label.terminal

@[simp] theorem label_node (l : Label) (cs : List Tree) : (node l cs).label = l := rfl

@[simp] theorem children_node (l : Label) (cs : List Tree) : (node l cs).children = cs := rfl

@[simp] theorem node_label_children (t : Tree) : node t.label t.children = t := by
  cases t; rfl

/-! ## Size and height -/

mutual
/-- The number of nodes, the root included. -/
def size : Tree → Nat
  | .node _ cs => 1 + forestSize cs

def forestSize : List Tree → Nat
  | [] => 0
  | t :: ts => size t + forestSize ts
end

mutual
/-- The number of edges on the longest downward path. -/
def height : Tree → Nat
  | .node _ cs => forestHeight cs

/-- One more than the height of the highest tree, zero for no tree. -/
def forestHeight : List Tree → Nat
  | [] => 0
  | t :: ts => max (height t + 1) (forestHeight ts)
end

theorem size_pos (t : Tree) : 0 < t.size := by
  cases t; simp only [size]; omega

@[simp] theorem forestSize_nil : forestSize [] = 0 := rfl

@[simp] theorem forestSize_cons (t : Tree) (ts : List Tree) :
    forestSize (t :: ts) = t.size + forestSize ts := rfl

theorem size_eq (t : Tree) : t.size = 1 + forestSize t.children := by
  cases t; rfl

theorem forestSize_append (ts us : List Tree) :
    forestSize (ts ++ us) = forestSize ts + forestSize us := by
  induction ts with
  | nil => simp
  | cons t ts ih => simp [ih, Nat.add_assoc]

theorem size_le_forestSize {t : Tree} {ts : List Tree} (h : t ∈ ts) : t.size ≤ forestSize ts := by
  induction ts with
  | nil => simp at h
  | cons u us ih =>
    rcases List.mem_cons.mp h with rfl | h
    · simp
    · exact Nat.le_trans (ih h) (by simp)

theorem size_lt_of_mem_children {t u : Tree} (h : u ∈ t.children) : u.size < t.size := by
  have := size_le_forestSize h
  rw [size_eq t]
  omega

/-! ## Traversal -/

mutual
/-- All nodes, each before its descendants and after its left neighbours. -/
def preorder : Tree → List Tree
  | .node l cs => .node l cs :: forestPreorder cs

def forestPreorder : List Tree → List Tree
  | [] => []
  | t :: ts => preorder t ++ forestPreorder ts
end

/-- The node reached by a path of child positions. -/
def at? : Tree → List Nat → Option Tree
  | t, [] => some t
  | .node _ cs, i :: rest => cs[i]?.bind fun c => at? c rest

/-- One tree lies somewhere below another. -/
inductive Below : Tree → Tree → Prop where
  | child {t u : Tree} (h : t ∈ u.children) : Below t u
  | step {t u v : Tree} (h : t ∈ u.children) (below : Below u v) : Below t v

theorem Below.size_lt {t u : Tree} (h : Below t u) : t.size < u.size := by
  induction h with
  | child h => exact size_lt_of_mem_children h
  | step h _ ih => exact Nat.lt_trans (size_lt_of_mem_children h) ih

theorem Below.trans {t u v : Tree} (h : Below t u) (h' : Below u v) : Below t v := by
  induction h with
  | child h => exact .step h h'
  | step h _ ih => exact .step h (ih h')

end Tree

end TreeAccord
