import TreeAccord.Text.Concat
import TreeAccord.Text.Quoted
import TreeAccord.Tree.Basic

/-!
# Tables of nodes

A tree that grows node by node. Each row holds one node with its parent and its children, given
by their row numbers; row 0 is the root. A node that carries a token is a leaf for good. Because a
row is only ever added below an earlier one, children stand after their parent, and every row
denotes a tree.
-/

namespace TreeAccord

/-- The payload of a leaf. -/
structure Token where
  kind : String
  text : String
deriving DecidableEq, Repr, Inhabited

/-- One node of a table. -/
structure Row where
  rule : String
  token? : Option Token := none
  parent? : Option Nat := none
  children : List Nat := []
deriving DecidableEq, Repr, Inhabited

structure NodeTable where
  rows : Array Row
  /-- Children stand below their parent. -/
  forward : ∀ (i : Nat) (row : Row), rows[i]? = some row →
    ∀ c ∈ row.children, i < c ∧ c < rows.size

namespace NodeTable

def size (t : NodeTable) : Nat := t.rows.size

def row? (t : NodeTable) (i : Nat) : Option Row := t.rows[i]?

def parent? (t : NodeTable) (i : Nat) : Option Nat := (t.row? i).bind Row.parent?

/-- Whether the row exists and carries a token. -/
def isToken (t : NodeTable) (i : Nat) : Bool := (t.row? i).any fun row => row.token?.isSome

/-- The `k`-th child of a row. -/
def child? (t : NodeTable) (i k : Nat) : Option Nat := (t.row? i).bind fun row => row.children[k]?

/-! ## Growing a table -/

/-- The table that holds nothing but a root. -/
def singleton (rule : String) : NodeTable where
  rows := #[{ rule }]
  forward := by
    intro i row h
    rcases i with _ | i
    · simp only [List.getElem?_toArray, List.getElem?_cons_zero, Option.some.injEq] at h
      subst h
      simp
    · simp at h

/-- Why a node is refused. -/
inductive Refusal where
  /-- The parent's row does not exist. -/
  | unknownParent (parent : Nat)
  /-- The parent carries a token. -/
  | tokenParent (parent : Nat) (rule : String)
  /-- Row numbers are used up. -/
  | full
  /-- The root has no parent to go up to. -/
  | noParent (row : Nat)
deriving DecidableEq, Repr

/-- The number of rows that a table can hold: row numbers have 32 bits. -/
def capacity : Nat := 0x100000000

def Refusal.message : Refusal → String
  | .unknownParent parent => "TreeBuilder: parent NodeId(" ++ parent.repr ++ ") not found"
  | .tokenParent parent rule =>
    "TreeBuilder: token node NodeId(" ++ parent.repr ++ ") (`" ++ rule ++ "`) cannot have children"
  | .full => "TreeBuilder: arena exceeds " ++ (capacity - 1).repr ++ " nodes"
  | .noParent row => "TreeBuilder: node NodeId(" ++ row.repr ++ ") has no parent"

/-- The rows after a node is added as the last child of `parent`. -/
def extendRows (rows : Array Row) (parent : Nat) (parentRow node : Row) : Array Row :=
  (rows.setIfInBounds parent
    { parentRow with children := parentRow.children ++ [rows.size] }).push node

theorem extendRows_forward {rows : Array Row} {parent : Nat} {parentRow node : Row}
    (forward : ∀ (i : Nat) (row : Row), rows[i]? = some row →
      ∀ c ∈ row.children, i < c ∧ c < rows.size)
    (hparent : rows[parent]? = some parentRow) (hnode : node.children = [])
    (i : Nat) (row : Row) (h : (extendRows rows parent parentRow node)[i]? = some row) :
    ∀ c ∈ row.children, i < c ∧ c < (extendRows rows parent parentRow node).size := by
  have hlt : parent < rows.size := (Array.getElem?_eq_some_iff.mp hparent).1
  intro c hc
  simp only [extendRows, Array.getElem?_push, Array.size_setIfInBounds, Array.size_push] at h ⊢
  split at h
  · cases h
    simp [hnode] at hc
  · rw [Array.getElem?_setIfInBounds] at h
    split at h
    · rename_i hi
      subst hi
      simp only [Option.some.injEq] at h
      subst h
      rcases List.mem_append.mp hc with hc | hc
      · have := forward parent parentRow hparent c hc
        omega
      · simp only [List.mem_singleton] at hc
        omega
    · have := forward i row h c hc
      omega

/-- Adds a node as the last child of `parent`; the new row's number is the old size. -/
def push (t : NodeTable) (parent : Nat) (rule : String) (token? : Option Token) :
    Except Refusal NodeTable :=
  match h : t.rows[parent]? with
  | none => .error (.unknownParent parent)
  | some parentRow =>
    if parentRow.token?.isSome then .error (.tokenParent parent parentRow.rule)
    else if t.size < capacity then
      .ok {
        rows := extendRows t.rows parent parentRow { rule, token?, parent? := some parent }
        forward := extendRows_forward t.forward h rfl }
    else .error .full

/-- A node to be added. -/
structure Request where
  parent : Nat
  rule : String
  token? : Option Token := none
deriving DecidableEq, Repr

/-- Answers a request with the row of the new node and the grown table, or with the refusal and the
table as it was. -/
def attempt (t : NodeTable) (request : Request) : Except Refusal Nat × NodeTable :=
  match t.push request.parent request.rule request.token? with
  | .ok grown => (.ok t.size, grown)
  | .error refusal => (.error refusal, t)

/-- The row above `i`. -/
def above (t : NodeTable) (i : Nat) : Except Refusal Nat :=
  match t.parent? i with
  | some p => .ok p
  | none => .error (.noParent i)

/-! ## The tree of a table -/

/-- The tree at row `i`. A token's text is the leaf's text; any other node covers the texts of
its children in order. -/
def subtree (t : NodeTable) (i : Nat) : Tree :=
  match _h : t.rows[i]? with
  | none => default
  | some row =>
    let kids := row.children.attach.map fun c => subtree t c.1
    let text := match row.token? with
      | some token => token.text
      | none => Text.concat (kids.map Tree.text)
    .node ⟨i, row.rule, row.token?.map Token.kind, text, row.token?.isSome⟩ kids
termination_by t.rows.size - i
decreasing_by
  have := t.forward i row _h c.1 c.2
  omega

/-- The whole tree. -/
def tree (t : NodeTable) : Tree := t.subtree 0

/-- The tree at a row, if the row exists. -/
def subtree? (t : NodeTable) (i : Nat) : Option Tree :=
  if i < t.size then some (t.subtree i) else none

/-! ## Showing a row -/

/-- A row with its number and token, each text in quotes. -/
def describe (i : Nat) (row : Row) : String :=
  let token := match row.token? with
    | some token =>
      "Some(Token \x7b kind: " ++ Text.quoted token.kind ++ ", text: " ++ Text.quoted token.text
        ++ " \x7d)"
    | none => "None"
  "NodeRef \x7b id: NodeId(" ++ i.repr ++ "), rule_name: " ++ Text.quoted row.rule ++ ", token: "
    ++ token ++ " \x7d"

end NodeTable

end TreeAccord
