import TreeAccord.Tree.Basic

/-!
# Listings

A tree written down as a list of nodes, each naming its parent's place in the list. Here a node is
terminal when nothing stands below it, whether or not it has a kind.
-/

namespace TreeAccord

/-- One node of a listing. -/
structure Listed where
  parent? : Option Nat
  rule : String
  text : String := ""
  kind? : Option String := none
deriving DecidableEq, Repr, Inhabited

namespace Listing

/-- The places of the nodes that name `i` as their parent and stand after it. -/
def childrenOf (nodes : Array Listed) (i : Nat) : List Nat :=
  (List.range nodes.size).filter fun j => i < j && (nodes[j]?.any fun n => n.parent? == some i)

theorem mem_childrenOf {nodes : Array Listed} {i j : Nat} (h : j ∈ childrenOf nodes i) :
    i < j ∧ j < nodes.size := by
  simp only [childrenOf, List.mem_filter, List.mem_range, Bool.and_eq_true,
    decide_eq_true_eq] at h
  exact ⟨h.2.1, h.1⟩

/-- The tree whose root is the `i`-th node. -/
def subtree (nodes : Array Listed) (i : Nat) : Tree :=
  let node := nodes[i]?.getD default
  let kids := (childrenOf nodes i).attach.map fun j => subtree nodes j.1
  .node ⟨i, node.rule, node.kind?, node.text, kids.isEmpty⟩ kids
termination_by nodes.size - i
decreasing_by
  have := mem_childrenOf j.2
  omega

/-- The tree of the whole listing, rooted at its first node. -/
def tree (nodes : Array Listed) : Tree := subtree nodes 0

end Listing

end TreeAccord
