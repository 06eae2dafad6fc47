import TreeAccord.Proofs.Compare.Lockstep

/-! # Trees that a comparison cannot tell apart

All that a run asks of a node is its rule, whether it is a terminal, its arity and what is exposed
below it. A relation on trees that keeps these, and holds again between the exposed nodes, makes no
difference to any verdict. -/

namespace TreeAccord

open View

/-- Related trees look alike to the side, and so do the nodes exposed below them, in order. -/
structure Simulation (p : Side) (R : Tree → Tree → Prop) : Prop where
  rule_eq : ∀ {t u}, R t u → t.rule = u.rule
  terminal_eq : ∀ {t u}, R t u → t.terminal = u.terminal
  arity_eq : ∀ {t u}, R t u → arity p t = arity p u
  exposed_related : ∀ {t u}, R t u → List.Forall₂ R (exposed p t) (exposed p u)

theorem simulation_eq (p : Side) : Simulation p Eq where
  rule_eq := congrArg Tree.rule
  terminal_eq := congrArg Tree.terminal
  arity_eq := congrArg (arity p)
  exposed_related h := by rw [h, List.forall₂_eq_eq_eq]

namespace Simulation

variable {s : Comparison} {R S : Tree → Tree → Prop} {c c' r r' : Tree}

section

variable (hc : Simulation s.concordance.candidate R) (hr : Simulation s.concordance.reference S)
include hc hr

theorem divergeAt_eq (h : R c c') (h' : S r r') (cause : Cause) :
    Comparison.divergeAt c r cause = Comparison.divergeAt c' r' cause := by
  rw [Comparison.divergeAt, Comparison.divergeAt, hc.rule_eq h, hr.rule_eq h']

theorem namesAgree_eq (h : R c c') (h' : S r r') :
    Comparison.namesAgree s.concordance c r = Comparison.namesAgree s.concordance c' r' := by
  rw [Comparison.namesAgree, Comparison.namesAgree, hc.terminal_eq h, hr.terminal_eq h', hc.rule_eq h,
    hr.rule_eq h']

theorem verdict_meet_eq {depth : Nat} (h : R c c') (h' : S r r') {as as' bs bs' : List Tree}
    (hleft : List.Forall₂ R as as') (hright : List.Forall₂ S bs bs')
    (ih : ∀ a ∈ as, ∀ a' b b', R a a' → S b b' →
      (s.compare (depth + 1) a b).verdict = (s.compare (depth + 1) a' b').verdict)
    (budget : Nat) :
    (s.meet depth c r budget as bs).verdict = (s.meet depth c' r' budget as' bs').verdict := by
  induction budget generalizing as as' bs bs' with
  | zero => rfl
  | succ budget ihBudget =>
      cases hleft with
      | nil =>
          cases hright with
          | nil => rfl
          | cons hb hright => exact hc.divergeAt_eq hr h h' _
      | @cons a a' as as' ha hleft =>
          cases hright with
          | nil => exact hc.divergeAt_eq hr h h' _
          | cons hb hright =>
              have hfirst := ih a List.mem_cons_self _ _ _ ha hb
              have hothers := ihBudget hleft hright fun a ha => ih a (List.mem_cons_of_mem _ ha)
              rw [Comparison.meet, Comparison.meet, Run.verdict_andThen, Run.verdict_andThen,
                hothers, hr.rule_eq h']
              dsimp only
              rw [hfirst]

/-- Trees that are related on their sides get the same verdict. -/
theorem verdict_compare_eq (h : R c c') (h' : S r r') (depth : Nat) :
    (s.compare depth c r).verdict = (s.compare depth c' r').verdict := by
  induction c using exposed_induction s.concordance.candidate generalizing c' r r' depth with
  | step c ih =>
      have hshape : s.shapeVerdict depth c r = s.shapeVerdict depth c' r' := by
        have hleft := hc.arity_eq h
        have hright := hr.arity_eq h'
        by_cases harity : arity s.concordance.candidate c = arity s.concordance.reference r
        · have harity' := hleft.symm.trans (harity.trans hright)
          rw [Comparison.shapeVerdict_of_eq harity, Comparison.shapeVerdict_of_eq harity', ← hleft]
          exact hc.verdict_meet_eq hr h h' (hc.exposed_related h) (hr.exposed_related h')
            (fun a ha a' b b' hab hab' => ih a ha hab hab' (depth + 1)) _
        · have harity' : arity s.concordance.candidate c' ≠ arity s.concordance.reference r' := by
            rwa [← hleft, ← hright]
          rw [Comparison.shapeVerdict_of_ne harity, Comparison.shapeVerdict_of_ne harity', hleft,
            hright, hc.divergeAt_eq hr h h']
      rw [Comparison.verdict_compare, Comparison.verdict_compare, hshape, hc.namesAgree_eq hr h h',
        hc.rule_eq h, hr.rule_eq h', hc.divergeAt_eq hr h h' .ruleNames]
      cases s.tooDeep? depth with
      | some limit => exact hc.divergeAt_eq hr h h' _
      | none => rfl

end

/-- A candidate may be replaced by a related one. -/
theorem verdict_candidate_eq (hc : Simulation s.concordance.candidate R) (h : R c c') (r : Tree) :
    s.verdict c r = s.verdict c' r := by
  rw [Comparison.verdict_eq, Comparison.verdict_eq]
  exact hc.verdict_compare_eq (simulation_eq _) h rfl 0

/-- A reference may be replaced by a related one. -/
theorem verdict_reference_eq (hr : Simulation s.concordance.reference S) (h : S r r') (c : Tree) :
    s.verdict c r = s.verdict c r' := by
  rw [Comparison.verdict_eq, Comparison.verdict_eq]
  exact (simulation_eq _).verdict_compare_eq hr rfl h 0

end Simulation

end TreeAccord
