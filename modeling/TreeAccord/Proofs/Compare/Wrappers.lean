import TreeAccord.Proofs.Compare.Concurrence
import TreeAccord.Proofs.Compare.Simulation
import TreeAccord.Proofs.Config.Contents
import TreeAccord.Proofs.View.Unwrapping

/-! # Wrappers make no difference, one at a time

A comparison takes a wrapper for the nodes inside it, and so it cannot tell a tree from the same tree
without its wrappers. This ends where a wrapper stands right inside another one and holds several
nodes: the arity counts these nodes, but the cursor stops at the inner wrapper. -/

namespace TreeAccord

open View

/-! ## Settings without exceptions -/

theorem Side.uniform_ofSettings {s : SideSettings}
    (textless : (Side.ofSettings s).inspectsText = false) (noLists : s.alwaysListRules = [])
    (noExceptions : ∀ w ∈ s.wrappers, w.unlessParent? = none) : (Side.ofSettings s).Uniform where
  textless := textless
  noLists rule := by
    simp [Side.isListRule, Side.ofSettings, noLists]
  unconditional rule parent? parent?' := by
    have hnowhere (parent : String) : (⟨rule, some parent⟩ : Wrapper) ∉ s.wrappers :=
      fun h => absurd (noExceptions _ h) (Option.some_ne_none parent)
    rw [Bool.eq_iff_iff, Side.isWrapper_ofSettings_iff, Side.isWrapper_ofSettings_iff]
    simp only [hnowhere, not_false_eq_true, implies_true]

/-! ## Wrappers that count -/

namespace View

/-- Every wrapper below the root is visible and counts as one child or more. -/
def WrappersCount (p : Side) (t : Tree) : Prop :=
  ∀ u ∈ t.preorder, ∀ v ∈ u.children, transparent p (some u.rule) v = true →
    visible p v = true ∧ 1 ≤ arity p v

instance (p : Side) (t : Tree) : Decidable (WrappersCount p t) :=
  inferInstanceAs (Decidable (∀ u ∈ t.preorder, ∀ v ∈ u.children,
    transparent p (some u.rule) v = true → visible p v = true ∧ 1 ≤ arity p v))

/-- A terminal counts nothing, so no wrapper that counts is one. -/
theorem WrappersCount.wellWrapped {p : Side} {t : Tree} (h : WrappersCount p t)
    (leaves : t.TerminalsAtLeaves) : WellWrapped p t := by
  intro u hu v hv wrapper
  obtain ⟨hvisible, hpos⟩ := h u hu v hv wrapper
  refine ⟨hvisible, ?_, hpos⟩
  cases hterminal : v.terminal with
  | false => rfl
  | true =>
      have hmem := Tree.mem_preorder_trans (Tree.mem_preorder_of_mem_children hv) hu
      have hzero := arity_eq_zero_of_children_eq_nil (p := p) (leaves v hmem hterminal)
      omega

end View

/-! ## The simulation -/

theorem simulation_unwrapped {p : Side} (uniform : p.Uniform) :
    Simulation p fun t t' => (WellWrapped p t ∧ NestedThin p t) ∧ Unwrapped p t t' where
  rule_eq h := h.2.alike.rule
  terminal_eq h := h.2.alike.terminal
  arity_eq h := h.2.arity_eq uniform h.1.1
  exposed_related {t t'} h := by
    obtain ⟨⟨hw, thin⟩, h⟩ := h
    refine (List.forall₂_and_left _ _).mpr ⟨fun u hu => ?_, h.exposed uniform hw thin⟩
    have hmem := mem_preorder_of_mem_exposed hu
    exact ⟨hw.of_mem_preorder hmem, thin.of_mem_preorder hmem⟩

/-- A candidate can be unwrapped, and whichever tree comes of it gets the same verdict against every
reference, under any policy and limit. The wrappers are known by their rules, are visible and count,
and one right inside another counts as a single child. Terminals are leaves, as in all tables that are
built node by node. -/
theorem verdict_unwrapped (s : Settings)
    (textless : (Side.ofSettings s.candidate).inspectsText = false)
    (noLists : s.candidate.alwaysListRules = [])
    (noExceptions : ∀ w ∈ s.candidate.wrappers, w.unlessParent? = none) {t : Tree}
    (leaves : t.TerminalsAtLeaves) (counted : WrappersCount (.ofSettings s.candidate) t)
    (thin : NestedThin (.ofSettings s.candidate) t) :
    (∃ t', Unwrapped (.ofSettings s.candidate) t t') ∧
      ∀ t', Unwrapped (.ofSettings s.candidate) t t' → ∀ (limit? : Option Nat) (r : Tree),
        Comparison.verdict ⟨.ofSettings s, limit?⟩ t r =
          Comparison.verdict ⟨.ofSettings s, limit?⟩ t' r := by
  refine ⟨exists_unwrapped _ t, ?_⟩
  intro t' h limit? r
  have uniform := Side.uniform_ofSettings textless noLists noExceptions
  have hsimulation : Simulation (Concordance.ofSettings s).candidate _ :=
    simulation_unwrapped uniform
  exact Simulation.verdict_candidate_eq (s := ⟨.ofSettings s, limit?⟩) hsimulation
    ⟨⟨counted.wellWrapped leaves, thin⟩, h⟩ r

/-! ### Blocks inside bodies -/

/-- Bodies and blocks are wrappers on the candidate's side. -/
def blockSettings (policy : NamePolicy) : Settings where
  namePolicy := policy
  candidate := { wrappers := [⟨"Body", none⟩, ⟨"Block", none⟩] }

def blockSide : Side := .ofSettings (blockSettings .every).candidate

/-- Two statements in a body, the first of them in a block of its own. -/
def singleBlockTree : Tree :=
  .node ⟨0, "Fun", none, "xyxy", false⟩
    [.node ⟨1, "Body", none, "xyxy", false⟩
      [.node ⟨2, "Block", none, "xy", false⟩ [statementTree 3], statementTree 6]]

/-- Two statements in one block, which is all that the body holds. -/
def doubleBlockTree : Tree :=
  .node ⟨0, "Fun", none, "xyxy", false⟩
    [.node ⟨1, "Body", none, "xyxy", false⟩
      [.node ⟨2, "Block", none, "xyxy", false⟩ [statementTree 3, statementTree 6]]]

theorem unwrapped_statementTree (i j : Nat) :
    Unwrapped blockSide (statementTree i) (statementTree j) :=
  .node ⟨rfl, rfl, rfl⟩ (.keep (by cbv) (.node ⟨rfl, rfl, rfl⟩ (.nil _))
    (.keep (by cbv) (.node ⟨rfl, rfl, rfl⟩ (.nil _)) (.nil _)))

theorem unwrapped_singleBlockTree : Unwrapped blockSide singleBlockTree flatTree :=
  .node ⟨rfl, rfl, rfl⟩ (.dissolve (by decide)
    (.dissolve (by decide) (.keep (by decide) (unwrapped_statementTree 3 1) (.nil _))
      (.keep (by decide) (unwrapped_statementTree 6 4) (.nil _))) (.nil _))

theorem unwrapped_doubleBlockTree : Unwrapped blockSide doubleBlockTree flatTree :=
  .node ⟨rfl, rfl, rfl⟩ (.dissolve (by decide)
    (.dissolve (by decide) (.keep (by decide) (unwrapped_statementTree 3 1)
      (.keep (by decide) (unwrapped_statementTree 6 4) (.nil _))) (.nil _)) (.nil _))

/-- A block of a single statement in a body is looked through as the body is. -/
theorem verdict_singleBlockTree :
    blockSide.inspectsText = false ∧ (blockSettings .every).candidate.alwaysListRules = [] ∧
      (∀ w ∈ (blockSettings .every).candidate.wrappers, w.unlessParent? = none) ∧
      singleBlockTree.TerminalsAtLeaves ∧ WrappersCount blockSide singleBlockTree ∧
      NestedThin blockSide singleBlockTree ∧ Unwrapped blockSide singleBlockTree flatTree ∧
      Comparison.verdict ⟨.ofSettings (blockSettings .every), none⟩ singleBlockTree flatTree =
        Comparison.verdict ⟨.ofSettings (blockSettings .every), none⟩ flatTree flatTree := by
  have textless : blockSide.inspectsText = false := by decide
  have noExceptions : ∀ w ∈ (blockSettings .every).candidate.wrappers, w.unlessParent? = none := by
    decide
  have leaves : singleBlockTree.TerminalsAtLeaves := by decide
  have counted : WrappersCount blockSide singleBlockTree := by decide
  have thin : NestedThin blockSide singleBlockTree := by decide
  refine ⟨textless, rfl, noExceptions, leaves, counted, thin, unwrapped_singleBlockTree, ?_⟩
  exact (verdict_unwrapped (blockSettings .every) textless rfl noExceptions leaves counted thin).2
    flatTree unwrapped_singleBlockTree none flatTree

/-- A block of two statements in a body is not looked through, although it counts as two: the function
without wrappers is accepted, the function with them is not, under either policy. -/
theorem refuses_doubleBlockTree :
    (∀ policy, (blockSettings policy).reference = {}) ∧
      blockSide.inspectsText = false ∧ (blockSettings .every).candidate.alwaysListRules = [] ∧
      (∀ w ∈ (blockSettings .every).candidate.wrappers, w.unlessParent? = none) ∧
      doubleBlockTree.TerminalsAtLeaves ∧ WrappersCount blockSide doubleBlockTree ∧
      Unwrapped blockSide doubleBlockTree flatTree ∧
      ∀ policy : NamePolicy,
        Comparison.accepts ⟨.ofSettings (blockSettings policy), none⟩ flatTree flatTree = true ∧
        Comparison.accepts ⟨.ofSettings (blockSettings policy), none⟩ doubleBlockTree flatTree =
          false := by
  have leaves : doubleBlockTree.TerminalsAtLeaves := by decide
  have counted : WrappersCount blockSide doubleBlockTree := by decide
  refine ⟨fun _ => rfl, by decide, rfl, by decide, leaves, counted, unwrapped_doubleBlockTree, ?_⟩
  intro policy
  cases policy with
  | every => exact ⟨by cbv, by cbv⟩
  | root => exact ⟨by cbv, by cbv⟩

end TreeAccord
