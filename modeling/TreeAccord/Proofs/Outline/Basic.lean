import TreeAccord.Tree.Table

/-! # Outlines

An outline keeps of a tree what a dump can show: the rules and tokens in their places. It can be
laid out as lines with depths, and it can be stored as consecutive rows of a table, each node before
its descendants. -/

namespace TreeAccord

inductive Outline where
  | node (rule : String) (token? : Option Token) (children : List Outline)
deriving Inhabited

namespace Outline

def rule : Outline → String
  | node rule _ _ => rule

def token? : Outline → Option Token
  | node _ token? _ => token?

def children : Outline → List Outline
  | node _ _ children => children

/-- A node without children. -/
def leaf (rule : String) (token? : Option Token) : Outline := node rule token? []

mutual
/-- The number of nodes. -/
def size : Outline → Nat
  | node _ _ children => 1 + forestSize children

def forestSize : List Outline → Nat
  | [] => 0
  | o :: os => o.size + forestSize os
end

@[simp] theorem forestSize_nil : forestSize [] = 0 := rfl

@[simp] theorem forestSize_cons (o : Outline) (os : List Outline) :
    forestSize (o :: os) = o.size + forestSize os := rfl

@[simp] theorem forestSize_append (os os' : List Outline) :
    forestSize (os ++ os') = forestSize os + forestSize os' := by
  induction os with
  | nil => simp
  | cons o os ih => simp [ih, Nat.add_assoc]

/-! ## Lines -/

/-- One line of a dump: a node with its depth. -/
structure Placed where
  depth : Nat
  rule : String
  token? : Option Token
deriving DecidableEq, Repr

mutual
/-- The nodes in order, with their depths when the root has the given one. -/
def layout (depth : Nat) : Outline → List Placed
  | node rule token? children => ⟨depth, rule, token?⟩ :: forestLayout (depth + 1) children

def forestLayout (depth : Nat) : List Outline → List Placed
  | [] => []
  | o :: os => o.layout depth ++ forestLayout depth os
end

theorem layout_eq_cons (depth : Nat) (o : Outline) :
    o.layout depth = ⟨depth, o.rule, o.token?⟩ :: forestLayout (depth + 1) o.children := by
  cases o
  rfl

@[simp] theorem forestLayout_append (depth : Nat) (os os' : List Outline) :
    forestLayout depth (os ++ os') = forestLayout depth os ++ forestLayout depth os' := by
  induction os with
  | nil => rfl
  | cons o os ih => simp only [List.cons_append, forestLayout, ih, List.append_assoc]

mutual
theorem length_layout (depth : Nat) : ∀ o : Outline, (o.layout depth).length = o.size
  | node _ _ children => by
    rw [layout, List.length_cons, length_forestLayout, size, Nat.add_comm]

theorem length_forestLayout (depth : Nat) :
    ∀ os : List Outline, (forestLayout depth os).length = forestSize os
  | [] => rfl
  | o :: os => by
    rw [forestLayout, List.length_append, length_layout, length_forestLayout, forestSize_cons]
end

/-! ## Rows -/

/-- The rows of the roots of a forest that is stored from row `first` on. -/
def rootRows (first : Nat) : List Outline → List Nat
  | [] => []
  | o :: os => first :: rootRows (first + o.size) os

mutual
/-- The rows that store an outline from row `first` on. -/
def rows (parent? : Option Nat) (first : Nat) : Outline → List Row
  | node rule token? children =>
    ⟨rule, token?, parent?, rootRows (first + 1) children⟩
      :: forestRows (some first) (first + 1) children

def forestRows (parent? : Option Nat) (first : Nat) : List Outline → List Row
  | [] => []
  | o :: os => o.rows parent? first ++ forestRows parent? (first + o.size) os
end

@[simp] theorem rootRows_append (first : Nat) (os os' : List Outline) :
    rootRows first (os ++ os') = rootRows first os ++ rootRows (first + forestSize os) os' := by
  induction os generalizing first with
  | nil => simp [rootRows]
  | cons o os ih => simp [rootRows, ih, Nat.add_assoc]

@[simp] theorem forestRows_append (parent? : Option Nat) (first : Nat) (os os' : List Outline) :
    forestRows parent? first (os ++ os') =
      forestRows parent? first os ++ forestRows parent? (first + forestSize os) os' := by
  induction os generalizing first with
  | nil => simp [forestRows]
  | cons o os ih => simp [forestRows, ih, Nat.add_assoc]

mutual
theorem length_rows (parent? : Option Nat) (first : Nat) :
    ∀ o : Outline, (o.rows parent? first).length = o.size
  | node _ _ children => by
    rw [rows, List.length_cons, length_forestRows, size, Nat.add_comm]

theorem length_forestRows (parent? : Option Nat) (first : Nat) :
    ∀ os : List Outline, (forestRows parent? first os).length = forestSize os
  | [] => rfl
  | o :: os => by
    rw [forestRows, List.length_append, length_rows, length_forestRows, forestSize_cons]
end

/-! ## Tokens at leaves -/

/-- No node that carries a token has children. -/
inductive TokensAtLeaves : Outline → Prop where
  | node {rule : String} {token? : Option Token} {children : List Outline}
      (leaf : token?.isSome = true → children = [])
      (below : ∀ o ∈ children, TokensAtLeaves o) : TokensAtLeaves (node rule token? children)

theorem tokensAtLeaves_leaf (rule : String) (token? : Option Token) :
    TokensAtLeaves (leaf rule token?) :=
  .node (fun _ => rfl) (by simp)

/-! ## Other tokens -/

def Placed.mapToken (f : Token → Token) (e : Placed) : Placed :=
  { e with token? := e.token?.map f }

mutual
/-- The same outline with other tokens in the same places. -/
def mapTokens (f : Token → Token) : Outline → Outline
  | node rule token? children => node rule (token?.map f) (forestMapTokens f children)

def forestMapTokens (f : Token → Token) : List Outline → List Outline
  | [] => []
  | o :: os => o.mapTokens f :: forestMapTokens f os
end

theorem forestMapTokens_eq_map (f : Token → Token) (os : List Outline) :
    forestMapTokens f os = os.map (mapTokens f) := by
  induction os with
  | nil => rfl
  | cons o os ih => rw [forestMapTokens, ih, List.map_cons]

mutual
theorem layout_mapTokens (f : Token → Token) (depth : Nat) :
    ∀ o : Outline, (o.mapTokens f).layout depth = (o.layout depth).map (Placed.mapToken f)
  | node rule token? children => by
    rw [mapTokens, layout, layout, List.map_cons, forestLayout_forestMapTokens]
    rfl

theorem forestLayout_forestMapTokens (f : Token → Token) (depth : Nat) :
    ∀ os : List Outline,
      forestLayout depth (forestMapTokens f os) = (forestLayout depth os).map (Placed.mapToken f)
  | [] => rfl
  | o :: os => by
    rw [forestMapTokens, forestLayout, forestLayout, List.map_append, layout_mapTokens,
      forestLayout_forestMapTokens]
end

end Outline

end TreeAccord
