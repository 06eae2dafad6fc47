import TreeAccord.Proofs.Compare.Concurrence
import TreeAccord.Proofs.Compare.Reflexivity

/-! # Three trees

With one reading for both sides, agreement carries over from a first and a second tree, and a second
and a third, to the first and the third. The three runs walk the same numbers of exposed nodes,
whether the nodes are used up before or not. -/

namespace TreeAccord

open View

/-- Three lists that are related pair by pair, as far as the members of the first list allow. -/
theorem forall₂_trans_of_mem {R : Tree → Tree → Prop} {as bs cs : List Tree}
    (h : ∀ a ∈ as, ∀ b c, R a b → R b c → R a c) (hab : List.Forall₂ R as bs)
    (hbc : List.Forall₂ R bs cs) : List.Forall₂ R as cs := by
  induction hab generalizing cs with
  | nil => exact hbc
  | @cons a b as bs hfirst _ ih =>
      cases hbc with
      | @cons _ c _ cs hsecond hbc =>
          exact .cons (h a List.mem_cons_self b c hfirst hsecond)
            (ih (fun a' ha => h a' (List.mem_cons_of_mem a ha)) hbc)

namespace Comparison

/-- The names of a pair correspond when both nodes are terminals, or neither is and the rules are
equivalent. -/
theorem namesAgree_eq_true_iff (k : Concordance) (c r : Tree) :
    namesAgree k c r = true ↔
      c.terminal = r.terminal ∧ (c.terminal = false → k.equates c.rule r.rule = true) := by
  rw [namesAgree]
  cases c.terminal <;> cases r.terminal <;> simp

/-- One reading for both sides, no limit, no waived pairs, and rules that are equivalent only if what
lies between them is. -/
structure Balanced (s : Comparison) : Prop where
  unlimited : s.depthLimit? = none
  same : s.concordance.reference = s.concordance.candidate
  unwaived : ∀ a b, s.concordance.waives a b = false
  equates_trans : ∀ {a b c}, s.concordance.equates a b = true → s.concordance.equates b c = true →
    s.concordance.equates a c = true

namespace Balanced

variable {s : Comparison} (h : s.Balanced)
include h

theorem namesAgree_trans {a b c : Tree} (hab : namesAgree s.concordance a b = true)
    (hbc : namesAgree s.concordance b c = true) : namesAgree s.concordance a c = true := by
  rw [namesAgree_eq_true_iff] at hab hbc ⊢
  obtain ⟨hterminal, hrules⟩ := hab
  obtain ⟨hterminal', hrules'⟩ := hbc
  refine ⟨hterminal.trans hterminal', fun ha => h.equates_trans (hrules ha) (hrules' ?_)⟩
  rw [← hterminal, ha]

/-- What agreement asks of a pair when nothing is waived. -/
theorem agree_iff (depth : Nat) (a b : Tree) :
    (s.compare depth a b).verdict = .agree ↔
      (s.concordance.namePolicy.checks depth = true → namesAgree s.concordance a b = true) ∧
        arity s.concordance.candidate a = arity s.concordance.candidate b ∧
        List.Forall₂ (fun u v => (s.compare (depth + 1) u v).verdict = .agree)
          ((exposed s.concordance.candidate a).take (arity s.concordance.candidate a))
          ((exposed s.concordance.candidate b).take (arity s.concordance.candidate b)) := by
  rw [s.verdict_compare_eq_agree_iff (s.tooDeep?_of_unlimited h.unlimited depth), h.unwaived, h.same]
  simp only [Bool.false_eq_true, false_or]

theorem agree_trans {depth : Nat} {a b c : Tree} (hab : (s.compare depth a b).verdict = .agree)
    (hbc : (s.compare depth b c).verdict = .agree) : (s.compare depth a c).verdict = .agree := by
  induction a using exposed_induction s.concordance.candidate generalizing depth b c with
  | step a ih =>
      rw [h.agree_iff] at hab hbc ⊢
      obtain ⟨hnames, harity, hpairs⟩ := hab
      obtain ⟨hnames', harity', hpairs'⟩ := hbc
      refine ⟨fun hchecks => h.namesAgree_trans (hnames hchecks) (hnames' hchecks),
        harity.trans harity', forall₂_trans_of_mem ?_ hpairs hpairs'⟩
      intro u hu v w
      exact ih u (List.mem_of_mem_take hu)

end Balanced

theorem balanced_withSides (side : SideSettings) (policy : NamePolicy) :
    Balanced ⟨.ofSettings (Settings.withSides { namePolicy := policy } side), none⟩ where
  unlimited := rfl
  same := rfl
  unwaived _ _ := rfl
  equates_trans {a b c} hab hbc := by
    have hequates : ∀ a b, (Concordance.ofSettings
        (Settings.withSides { namePolicy := policy } side)).equates a b = (a == b) :=
      fun a b => Bool.or_false _
    rw [hequates, beq_iff_eq] at hab hbc ⊢
    exact hab.trans hbc

end Comparison

/-- However both sides are read, as long as they are read alike and no rules are paired, a tree that
is accepted against a second one is accepted against all that the second one is accepted against. -/
theorem accepts_trans (side : SideSettings) (policy : NamePolicy) {a b c : Tree}
    (hab : Comparison.accepts
      ⟨.ofSettings (Settings.withSides { namePolicy := policy } side), none⟩ a b = true)
    (hbc : Comparison.accepts
      ⟨.ofSettings (Settings.withSides { namePolicy := policy } side), none⟩ b c = true) :
    Comparison.accepts
      ⟨.ofSettings (Settings.withSides { namePolicy := policy } side), none⟩ a c = true := by
  rw [Comparison.accepts_iff] at hab hbc ⊢
  exact (Comparison.balanced_withSides side policy).agree_trans hab hbc

/-! ### A wrapper, nothing, a separator -/

/-- Bodies are transparent, and a semicolon is noise. -/
def looseSide : SideSettings where
  wrappers := [⟨"Body", none⟩]
  irrelevantTexts := [";"]

/-- The two statements of a function with a semicolon between them. -/
def separatedTree : Tree :=
  .node ⟨0, "Fun", none, "xy;xy", false⟩
    [statementTree 1, .node ⟨4, "Semi", some "SEMI", ";", true⟩ [], statementTree 5]

/-- The function with a body has no semicolon, and the function with a semicolon has no body. -/
theorem accepts_separatedTree :
    Comparison.accepts ⟨.ofSettings (Settings.withSides {} looseSide), none⟩ wrappedTree flatTree =
        true ∧
      Comparison.accepts ⟨.ofSettings (Settings.withSides {} looseSide), none⟩ flatTree
        separatedTree = true ∧
      Comparison.accepts ⟨.ofSettings (Settings.withSides {} looseSide), none⟩ wrappedTree
        separatedTree = true := by
  have hab : Comparison.accepts ⟨.ofSettings (Settings.withSides {} looseSide), none⟩ wrappedTree
      flatTree = true := by cbv
  have hbc : Comparison.accepts ⟨.ofSettings (Settings.withSides {} looseSide), none⟩ flatTree
      separatedTree = true := by cbv
  exact ⟨hab, hbc, accepts_trans looseSide .every hab hbc⟩

end TreeAccord
