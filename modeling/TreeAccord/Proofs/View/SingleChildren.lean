import TreeAccord.Proofs.View.Textless
import Mathlib.Data.List.Chain

/-! # Following single children

The core of a node is found at the end of a chain, and whether the node is hollow is found out along
the same chain. The two searches are written apart from each other, and they agree: they stop at the
same node, and its count decides, unless a rule on the way always names a list. -/

namespace TreeAccord.View

/-- A node of arity one passes on to its first visible child. -/
def Passes (p : Side) (t u : Tree) : Prop := arity p t = 1 ∧ firstVisible? p t = some u

/-- The chain that begins at `t` goes through the nodes of `path`, each of which is what the one before
it passes on to. It ends with `last`, which passes on to none. -/
structure ChainTo (p : Side) (t : Tree) (path : List Tree) (last : Tree) : Prop where
  links : (t :: path).IsChain (Passes p)
  ends : (t :: path).getLast? = some last
  stops : ∀ u, ¬Passes p last u

/-! ## One link -/

section

variable {p : Side} {t u v : Tree}

theorem Passes.mem_children (h : Passes p t u) : u ∈ t.children := List.mem_of_find?_eq_some h.2

theorem Passes.unique (h : Passes p t u) (h' : Passes p t v) : u = v :=
  Option.some.inj (h.2.symm.trans h'.2)

theorem Passes.core_eq (h : Passes p t u) : core p t = core p u := by
  rw [View.core_eq, if_pos h.1, h.2]
  rfl

theorem Passes.hollow_eq (h : Passes p t u) :
    hollow p t = (p.isListRule t.rule || hollow p u) := by
  rw [View.hollow_eq, h.1, h.2]
  rfl

theorem firstVisible?_eq_none_of_stops (stops : ∀ u, ¬Passes p t u) (hone : arity p t = 1) :
    firstVisible? p t = none := by
  rw [Option.eq_none_iff_forall_not_mem]
  intro u hu
  exact stops u ⟨hone, hu⟩

theorem core_eq_of_stops (stops : ∀ u, ¬Passes p t u) : core p t = t := by
  rw [core_eq]
  split
  · rename_i hone
    rw [firstVisible?_eq_none_of_stops stops hone]
    rfl
  · rfl

theorem hollow_iff_of_stops (stops : ∀ u, ¬Passes p t u) :
    hollow p t = true ↔ p.isListRule t.rule = true ∨ arity p t ≤ 1 := by
  rw [hollow_eq, Bool.or_eq_true]
  rcases hcount : arity p t with _ | _ | n
  · simp
  · simp [firstVisible?_eq_none_of_stops stops hcount]
  · simp

end

/-! ## Whole chains -/

namespace ChainTo

variable {p : Side} {t u last last' : Tree} {path path' : List Tree}

theorem stop (h : ∀ u, ¬Passes p t u) : ChainTo p t [] t where
  links := .singleton t
  ends := rfl
  stops := h

theorem cons (first : Passes p t u) (h : ChainTo p u path last) : ChainTo p t (u :: path) last where
  links := .cons_cons first h.links
  ends := by simpa using h.ends
  stops := h.stops

theorem of_cons (h : ChainTo p t (u :: path) last) : Passes p t u ∧ ChainTo p u path last := by
  obtain ⟨first, links⟩ := List.isChain_cons_cons.mp h.links
  exact ⟨first, links, by simpa using h.ends, h.stops⟩

theorem of_nil (h : ChainTo p t [] last) : last = t := by
  simpa using h.ends.symm

/-- Every chain comes to an end. -/
theorem exists_chainTo (p : Side) (t : Tree) : ∃ path last, ChainTo p t path last := by
  by_cases h : ∃ u, Passes p t u
  · obtain ⟨u, first⟩ := h
    obtain ⟨path, last, further⟩ := exists_chainTo p u
    exact ⟨u :: path, last, further.cons first⟩
  · exact ⟨[], t, .stop (not_exists.mp h)⟩
termination_by t.size
decreasing_by exact Tree.size_lt_of_mem_children first.mem_children

theorem unique (h : ChainTo p t path last) (h' : ChainTo p t path' last') :
    path = path' ∧ last = last' := by
  induction path generalizing t path' with
  | nil =>
      obtain rfl := h.of_nil
      cases path' with
      | nil => exact ⟨rfl, h'.of_nil.symm⟩
      | cons v path' => exact absurd h'.of_cons.1 (h.stops v)
  | cons u path ih =>
      obtain ⟨first, further⟩ := h.of_cons
      cases path' with
      | nil =>
          obtain rfl := h'.of_nil
          exact absurd first (h'.stops u)
      | cons v path' =>
          obtain ⟨first', further'⟩ := h'.of_cons
          obtain rfl := first.unique first'
          obtain ⟨rfl, rfl⟩ := ih further further'
          exact ⟨rfl, rfl⟩

theorem core_eq (h : ChainTo p t path last) : ∀ u ∈ t :: path, core p u = last := by
  induction path generalizing t with
  | nil =>
      obtain rfl := h.of_nil
      simpa using core_eq_of_stops h.stops
  | cons v path ih =>
      obtain ⟨first, further⟩ := h.of_cons
      have hrest : ∀ u ∈ v :: path, core p u = last := ih further
      intro u hu
      rcases List.mem_cons.mp hu with rfl | hu
      · rw [first.core_eq]
        exact hrest v List.mem_cons_self
      · exact hrest u hu

theorem hollow_iff (h : ChainTo p t path last) :
    hollow p t = true ↔
      (∃ u ∈ t :: path, p.isListRule u.rule = true) ∨ arity p last ≤ 1 := by
  induction path generalizing t with
  | nil =>
      obtain rfl := h.of_nil
      simpa using hollow_iff_of_stops h.stops
  | cons v path ih =>
      obtain ⟨first, further⟩ := h.of_cons
      rw [first.hollow_eq, Bool.or_eq_true, ih further, ← or_assoc]
      simp

end ChainTo

/-! ## Chains on plain sides -/

/-- Where visible children are counted and nothing else, a node that counts one passes on to it. So
no chain ends with a count of one. -/
theorem arity_ne_one_of_stops {p : Side} (plain : p.Plain) {t : Tree}
    (stops : ∀ u, ¬Passes p t u) : arity p t ≠ 1 := by
  intro hone
  have hnone : firstVisible? p t = none := firstVisible?_eq_none_of_stops stops hone
  have hzero : t.children.countP (visible p) = 0 := by
    rw [List.countP_eq_zero]
    exact List.find?_eq_none.mp hnone
  rw [arity_eq_countP plain] at hone
  omega

/-- The chain of a node ends, and it ends at the core, which is the core of every node on the way. The
node is hollow exactly if the rule of one of them always names a list or not more than one child is
counted at the end. On a plain side without such rules, none must be counted there. -/
theorem hollow_iff_chain (p : Side) (t : Tree) :
    ∃ path, ChainTo p t path (core p t) ∧
      (∀ path' last, ChainTo p t path' last → path' = path ∧ last = core p t) ∧
      (∀ u ∈ t :: path, core p u = core p t) ∧
      core p (core p t) = core p t ∧
      (hollow p t = true ↔
        (∃ u ∈ t :: path, p.isListRule u.rule = true) ∨ arity p (core p t) ≤ 1) ∧
      (p.Plain → p.settings.alwaysListRules = [] →
        (hollow p t = true ↔ arity p (core p t) = 0)) := by
  obtain ⟨path, last, hchain⟩ := ChainTo.exists_chainTo p t
  have hcores := hchain.core_eq
  have hlast : core p t = last := hcores t List.mem_cons_self
  have hmem : last ∈ t :: path := List.mem_of_getLast? hchain.ends
  have hhollow := hchain.hollow_iff
  rw [hlast]
  refine ⟨path, hchain, ?_, hcores, hcores last hmem, hhollow, ?_⟩
  · intro path' last' hchain'
    exact hchain'.unique hchain
  · intro plain noLists
    have hone : arity p last ≠ 1 := arity_ne_one_of_stops plain hchain.stops
    have hrule : ∀ u : Tree, p.isListRule u.rule = false := by
      intro u
      simp [Side.isListRule, noLists]
    rw [hhollow]
    simp only [hrule, Bool.false_eq_true, and_false, exists_false, false_or]
    omega

/-! ### A name on its own -/

def commentSide : Side := .ofSettings { irrelevantRules := ["Comment"] }

def loneLeaf : Tree := .node ⟨3, "Leaf", some "ID", "x", true⟩ []

def loneName : Tree := .node ⟨2, "Name", none, "x", false⟩ [loneLeaf]

/-- A comment stands before the name, but the name is the first visible child. -/
def loneFunction : Tree :=
  .node ⟨0, "Fun", none, "/**/x", false⟩
    [.node ⟨1, "Comment", some "COMMENT", "/**/", true⟩ [], loneName]

theorem chainTo_loneFunction : ChainTo commentSide loneFunction [loneName, loneLeaf] loneLeaf := by
  have stops : ∀ u, ¬Passes commentSide loneLeaf u := by
    intro u h
    exact absurd h.1 (by decide)
  have first : Passes commentSide loneFunction loneName := ⟨by decide, rfl⟩
  have second : Passes commentSide loneName loneLeaf := ⟨by decide, rfl⟩
  exact ((ChainTo.stop stops).cons second).cons first

theorem hollow_loneFunction :
    commentSide.Plain ∧ commentSide.settings.alwaysListRules = [] ∧
      ChainTo commentSide loneFunction [loneName, loneLeaf] loneLeaf ∧
      core commentSide loneFunction = loneLeaf ∧
      (hollow commentSide loneFunction = true ↔
        arity commentSide (core commentSide loneFunction) = 0) := by
  have plain : commentSide.Plain := ⟨by decide, by decide⟩
  obtain ⟨path, -, unique, -, -, -, onPlain⟩ := hollow_iff_chain commentSide loneFunction
  obtain ⟨-, hlast⟩ := unique _ _ chainTo_loneFunction
  exact ⟨plain, rfl, chainTo_loneFunction, hlast.symm, onPlain plain rfl⟩

end TreeAccord.View
