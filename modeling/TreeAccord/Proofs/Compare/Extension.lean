import TreeAccord.Proofs.Compare.Concurrence
import TreeAccord.Proofs.Config.Scan

/-! # More rules accept more trees

A further pair of rules makes a check of names pass that failed before, or ends a comparison before
it looks inside. Neither moves the cursors of the pairs above, so a run that agrees still agrees,
though it may take up fewer pairs. -/

namespace TreeAccord

open View

/-! ## Settings with more rules -/

namespace Settings

/-- The settings differ at most in their tables of rules, and every pair of the first ones is a pair
of the second ones. -/
structure Extends (s s' : Settings) : Prop where
  namePolicy : s'.namePolicy = s.namePolicy
  candidate : s'.candidate = s.candidate
  reference : s'.reference = s.reference
  equivalentRules : s.equivalentRules ⊆ s'.equivalentRules
  incomparableRules : s.incomparableRules ⊆ s'.incomparableRules

namespace Extends

variable {s s' : Settings} (h : s.Extends s') {candidate reference : String}
include h

theorem waives (hwaives : (Concordance.ofSettings s).waives candidate reference = true) :
    (Concordance.ofSettings s').waives candidate reference = true :=
  Correspondence.relates_of_subset h.incomparableRules hwaives

theorem equates (hequates : (Concordance.ofSettings s).equates candidate reference = true) :
    (Concordance.ofSettings s').equates candidate reference = true := by
  rw [Concordance.equates, Bool.or_eq_true] at hequates ⊢
  exact hequates.imp id (Correspondence.relates_of_subset h.equivalentRules)

/-- Names that pass at a depth still pass. -/
theorem namesPass {depth : Nat} {c r : Tree}
    (hnames : NamesPass (Concordance.ofSettings s) depth c r) :
    NamesPass (Concordance.ofSettings s') depth c r := by
  rcases hnames with ⟨hpolicy, hdeep⟩ | hterminals | ⟨hc, hr, hrules⟩
  · exact .inl ⟨h.namePolicy.trans hpolicy, hdeep⟩
  · exact .inr (.inl hterminals)
  · exact .inr (.inr ⟨hc, hr, h.equates hrules⟩)

end Extends

end Settings

/-! ## Runs under more rules -/

namespace Comparison

/-- A pair that agrees is waived by the longer table, or it passes the same checks again and its
exposed nodes agree pair by pair. -/
theorem agree_of_extends {s s' : Settings} (h : s.Extends s') {limit? : Option Nat} {depth : Nat}
    {c r : Tree} (hagree : (compare ⟨.ofSettings s, limit?⟩ depth c r).verdict = .agree) :
    (compare ⟨.ofSettings s', limit?⟩ depth c r).verdict = .agree := by
  induction c using exposed_induction (.ofSettings s.candidate) generalizing depth r with
  | step c ih =>
      have hdeep : tooDeep? ⟨.ofSettings s', limit?⟩ depth = tooDeep? ⟨.ofSettings s, limit?⟩ depth :=
        rfl
      cases hwithin : tooDeep? ⟨.ofSettings s, limit?⟩ depth with
      | some limit =>
          rw [verdict_compare, hwithin] at hagree
          cases hagree
      | none =>
          rw [hwithin] at hdeep
          rw [verdict_compare_eq_agree_iff _ hwithin] at hagree
          rw [verdict_compare_eq_agree_iff _ hdeep]
          rcases hagree with hwaives | ⟨hnames, harity, hpairs⟩
          · exact .inl (h.waives hwaives)
          · rw [← namesPass_iff] at hnames ⊢
            have hc : (Concordance.ofSettings s').candidate = .ofSettings s.candidate :=
              congrArg Side.ofSettings h.candidate
            have hr : (Concordance.ofSettings s').reference = .ofSettings s.reference :=
              congrArg Side.ofSettings h.reference
            rw [hc, hr]
            refine .inr ⟨h.namesPass hnames, harity, forall₂_imp_of_mem ?_ hpairs⟩
            intro a ha b _ hab
            exact ih a (List.mem_of_mem_take ha) hab

end Comparison

/-- Trees that are accepted are accepted still when rules are paired or waived that were not before,
whatever the order of the pairs, the policy and the depth limit. -/
theorem accepts_extended {s s' : Settings} (h : s.Extends s') (limit? : Option Nat) {c r : Tree}
    (haccepts : Comparison.accepts ⟨.ofSettings s, limit?⟩ c r = true) :
    Comparison.accepts ⟨.ofSettings s', limit?⟩ c r = true := by
  rw [Comparison.accepts_iff] at haccepts ⊢
  exact Comparison.agree_of_extends h haccepts

/-! ### Statements that are not looked into any more -/

/-- The function with rules of another vocabulary. -/
def renamedTree : Tree :=
  .node ⟨0, "Function", none, "xyxy", false⟩
    [.node ⟨1, "Statement", none, "xy", false⟩
        [.node ⟨2, "Leaf", some "ID", "x", true⟩ [], .node ⟨3, "Leaf", some "ID", "y", true⟩ []],
      .node ⟨4, "Statement", none, "xy", false⟩
        [.node ⟨5, "Leaf", some "ID", "x", true⟩ [], .node ⟨6, "Leaf", some "ID", "y", true⟩ []]]

def renamingSettings : Settings where
  equivalentRules := [⟨"Fun", "Function"⟩, ⟨"St*", "Statement"⟩]

/-- The same rules the other way round, with another one between them and a waived pair. -/
def lenientSettings : Settings where
  equivalentRules := [⟨"St*", "Statement"⟩, ⟨"Expr", "*"⟩, ⟨"Fun", "Function"⟩]
  incomparableRules := [⟨"Stmt", "State*"⟩]

theorem accepts_renamedTree :
    renamingSettings.Extends lenientSettings ∧
      Comparison.accepts ⟨.ofSettings renamingSettings, some 1⟩ flatTree renamedTree = true ∧
      Comparison.accepts ⟨.ofSettings lenientSettings, some 1⟩ flatTree renamedTree = true := by
  have hextends : renamingSettings.Extends lenientSettings :=
    ⟨rfl, rfl, rfl, by decide, by decide⟩
  have haccepts : Comparison.accepts ⟨.ofSettings renamingSettings, some 1⟩ flatTree renamedTree =
      true := by cbv
  exact ⟨hextends, haccepts, accepts_extended hextends (some 1) haccepts⟩

end TreeAccord
