import TreeAccord.Proofs.Tree.Preorder
import TreeAccord.View.Visibility
import Mathlib.Data.List.Chain

/-! # What keeps a block visible

A block is visible by what is visible in it, and that may be another block: the test of a node and
the search below it call each other at every depth. All this comes to one condition on paths. A block
is visible if one leads from it down to a terminal and meets no noise. Blocks on the way do not
matter, only the terminal itself must not be one. -/

namespace TreeAccord.View

/-! ## Clear paths -/

/-- The nodes of `path` lead from `t` down to `last`: each is a child of the one before it, and none of
them is noise. The node `t` is not among them and may be anything. -/
structure ClearPath (p : Side) (t : Tree) (path : List Tree) (last : Tree) : Prop where
  down : (t :: path).IsChain fun u v => v ∈ u.children
  clean : ∀ u ∈ path, isNoise p u.label = false
  ends : path.getLast? = some last

namespace ClearPath

variable {p : Side} {t u last : Tree} {path : List Tree}

theorem single (child : u ∈ t.children) (clean : isNoise p u.label = false) :
    ClearPath p t [u] u where
  down := by simpa using child
  clean := by simpa using clean
  ends := rfl

theorem cons (child : u ∈ t.children) (clean : isNoise p u.label = false)
    (h : ClearPath p u path last) : ClearPath p t (u :: path) last where
  down := .cons_cons child h.down
  clean := by
    intro v hv
    rcases List.mem_cons.mp hv with rfl | hv
    · exact clean
    · exact h.clean v hv
  ends := by simp [List.getLast?_cons, h.ends]

theorem head_mem_children (h : ClearPath p t (u :: path) last) : u ∈ t.children :=
  (List.isChain_cons_cons.mp h.down).1

/-- A path ends with its first node or goes on below it. -/
theorem single_or_further (h : ClearPath p t (u :: path) last) :
    path = [] ∧ last = u ∨ ClearPath p u path last := by
  cases path with
  | nil =>
      left
      exact ⟨rfl, by simpa using h.ends.symm⟩
  | cons v path =>
      right
      refine ⟨(List.isChain_cons_cons.mp h.down).2, ?_, ?_⟩
      · intro w hw
        exact h.clean w (List.mem_cons_of_mem u hw)
      · simpa using h.ends

theorem mem_preorder (h : ClearPath p t path last) (hu : u ∈ path) : u ∈ t.preorder := by
  induction path generalizing t with
  | nil => simp at hu
  | cons v path ih =>
      have child : v ∈ t.preorder := Tree.mem_preorder_of_mem_children h.head_mem_children
      rcases List.mem_cons.mp hu with rfl | hu
      · exact child
      · rcases h.single_or_further with ⟨rfl, -⟩ | further
        · simp at hu
        · exact Tree.mem_preorder_trans (ih further hu) child

theorem last_mem_path (h : ClearPath p t path last) : last ∈ path :=
  List.mem_of_getLast? h.ends

end ClearPath

/-! ## The search below a node -/

variable {p : Side} {t : Tree}

theorem holdsTerminal_of_clearPath {path : List Tree} {last : Tree} (h : ClearPath p t path last)
    (terminal : last.terminal = true) (noBlock : p.isBlockRule last.rule = false) :
    holdsTerminal p t.children = true := by
  induction path generalizing t with
  | nil => simpa using h.ends
  | cons u path ih =>
      have clean : isNoise p u.label = false := h.clean u List.mem_cons_self
      rw [holdsTerminal_eq_any, List.any_eq_true]
      refine ⟨u, h.head_mem_children, ?_⟩
      rcases h.single_or_further with ⟨-, rfl⟩ | further
      · simp [visible, clean, noBlock, terminal]
      · -- what lies ahead makes `u` visible even if it is a block
        simp [visible, clean, ih further]

theorem exists_clearPath_of_holdsTerminal {p : Side} {t : Tree}
    (h : holdsTerminal p t.children = true) :
    ∃ path last, ClearPath p t path last ∧ last.terminal = true ∧
      p.isBlockRule last.rule = false := by
  rw [holdsTerminal_eq_any, List.any_eq_true] at h
  obtain ⟨u, child, hu⟩ := h
  simp only [visible, Bool.and_eq_true, Bool.or_eq_true, Bool.not_eq_true'] at hu
  obtain ⟨⟨clean, hblock⟩, hfound⟩ := hu
  by_cases hbelow : holdsTerminal p u.children = true
  · obtain ⟨path, last, further, hlast⟩ := exists_clearPath_of_holdsTerminal hbelow
    exact ⟨u :: path, last, further.cons child clean, hlast⟩
  · -- nothing is found below `u`, so it was visible as no block and counted as a terminal
    have noBlock : p.isBlockRule u.rule = false := hblock.resolve_right hbelow
    have terminal : u.terminal = true := hfound.resolve_right hbelow
    exact ⟨[u], u, .single child clean, terminal, noBlock⟩
termination_by t.size
decreasing_by exact Tree.size_lt_of_mem_children child

theorem holdsTerminal_iff_exists_clearPath :
    holdsTerminal p t.children = true ↔
      ∃ path last, ClearPath p t path last ∧ last.terminal = true ∧
        p.isBlockRule last.rule = false := by
  constructor
  · exact exists_clearPath_of_holdsTerminal
  · rintro ⟨path, last, h, terminal, noBlock⟩
    exact holdsTerminal_of_clearPath h terminal noBlock

/-! ## Blocks that are no terminals -/

/-- Below and at `t`, the second side finds the same noise as the first one, and the same blocks among
the terminals. -/
structure SameAtTerminals (p q : Side) (t : Tree) : Prop where
  noise : ∀ u ∈ t.preorder, isNoise q u.label = isNoise p u.label
  blocks : ∀ u ∈ t.preorder, u.terminal = true → q.isBlockRule u.rule = p.isBlockRule u.rule

theorem ClearPath.transfer {q : Side} {path : List Tree} {last : Tree} (h : ClearPath p t path last)
    (noise : ∀ u ∈ t.preorder, isNoise q u.label = isNoise p u.label) : ClearPath q t path last where
  down := h.down
  clean := by
    intro u hu
    rw [noise u (h.mem_preorder hu)]
    exact h.clean u hu
  ends := h.ends

theorem SameAtTerminals.symm {q : Side} (same : SameAtTerminals p q t) : SameAtTerminals q p t where
  noise := fun u hu => (same.noise u hu).symm
  blocks := fun u hu terminal => (same.blocks u hu terminal).symm

theorem SameAtTerminals.holdsTerminal_imp {q : Side} (same : SameAtTerminals p q t)
    (h : holdsTerminal p t.children = true) : holdsTerminal q t.children = true := by
  obtain ⟨path, last, hpath, terminal, noBlock⟩ := exists_clearPath_of_holdsTerminal h
  have hlast : last ∈ t.preorder := hpath.mem_preorder hpath.last_mem_path
  apply holdsTerminal_of_clearPath (hpath.transfer same.noise) terminal
  rw [same.blocks last hlast terminal]
  exact noBlock

theorem SameAtTerminals.holdsTerminal_eq {q : Side} (same : SameAtTerminals p q t) :
    holdsTerminal q t.children = holdsTerminal p t.children :=
  Bool.eq_iff_iff.mpr ⟨same.symm.holdsTerminal_imp, same.holdsTerminal_imp⟩

theorem visible_of_block (block : p.isBlockRule t.rule = true)
    (clean : isNoise p t.label = false) : visible p t = holdsTerminal p t.children := by
  rw [visible, clean, block]
  rfl

/-- A block that is no noise itself is visible exactly if a clear path leads from it to a terminal
that is no block. It is the same to any side that finds the same noise, and the same blocks among the
terminals, whatever else this side takes for a block. -/
theorem visible_block_iff (block : p.isBlockRule t.rule = true)
    (clean : isNoise p t.label = false) :
    (visible p t = true ↔
        ∃ path last, ClearPath p t path last ∧ last.terminal = true ∧
          p.isBlockRule last.rule = false) ∧
      ∀ q : Side, q.isBlockRule t.rule = true → SameAtTerminals p q t →
        visible q t = visible p t := by
  rw [visible_of_block block clean]
  refine ⟨holdsTerminal_iff_exists_clearPath, ?_⟩
  intro q hblock same
  have hclean : isNoise q t.label = false := by
    rw [same.noise t t.mem_preorder_self]
    exact clean
  rw [visible_of_block hblock hclean]
  exact same.holdsTerminal_eq

/-! ### Blocks in blocks -/

def blockSide : Side := .ofSettings {
  irrelevantRules := ["Comment"]
  irrelevantTokenKinds := ["NL"]
  emptyBlockRules := ["Block", "Statements"] }

/-- The same side without the inner blocks. -/
def outerBlockSide : Side := .ofSettings {
  irrelevantRules := ["Comment"]
  irrelevantTokenKinds := ["NL"]
  emptyBlockRules := ["Block"] }

/-- The name in the inner block is reached, the one in the comment is not. -/
def nestedBlock : Tree :=
  .node ⟨0, "Block", none, "/**/x", false⟩
    [.node ⟨1, "Comment", none, "/**/", false⟩ [.node ⟨2, "Leaf", some "ID", "/**/", true⟩ []],
      .node ⟨3, "Statements", none, "x", false⟩
        [.node ⟨4, "Leaf", some "NL", "", true⟩ [],
          .node ⟨5, "Name", none, "x", false⟩ [.node ⟨6, "Leaf", some "ID", "x", true⟩ []]]]

theorem visible_nestedBlock :
    blockSide.isBlockRule nestedBlock.rule = true ∧ isNoise blockSide nestedBlock.label = false ∧
      outerBlockSide.isBlockRule nestedBlock.rule = true ∧
      SameAtTerminals blockSide outerBlockSide nestedBlock ∧
      (visible blockSide nestedBlock = true ↔
        ∃ path last, ClearPath blockSide nestedBlock path last ∧ last.terminal = true ∧
          blockSide.isBlockRule last.rule = false) ∧
      visible outerBlockSide nestedBlock = visible blockSide nestedBlock ∧
      visible blockSide nestedBlock = true := by
  have block : blockSide.isBlockRule nestedBlock.rule = true := by decide
  have clean : isNoise blockSide nestedBlock.label = false := by decide
  have outer : outerBlockSide.isBlockRule nestedBlock.rule = true := by decide
  have same : SameAtTerminals blockSide outerBlockSide nestedBlock := ⟨by decide, by decide⟩
  obtain ⟨paths, unchanged⟩ := visible_block_iff block clean
  exact ⟨block, clean, outer, same, paths, unchanged outerBlockSide outer same, by cbv⟩

end TreeAccord.View
