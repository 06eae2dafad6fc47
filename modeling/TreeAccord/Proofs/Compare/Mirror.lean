import TreeAccord.Proofs.Compare.Lockstep
import TreeAccord.Proofs.Config.Scan

/-! # Exchanging the two sides

The code walks the candidate's arity, gathers pairs under the candidate's names and reports the path
of reference rules. What it finds does not depend on that: with the sides of the settings exchanged,
the exchanged trees give the mirror image of the verdict. -/

namespace TreeAccord

open View

/-! ## Mirror images -/

/-- The cause with the sides exchanged. -/
def Cause.mirror : Cause → Cause
  | .ruleNames => .ruleNames
  | .childCount candidate reference => .childCount reference candidate
  | .candidateExhausted => .referenceExhausted
  | .referenceExhausted => .candidateExhausted
  | .depthLimit limit => .depthLimit limit

/-- The second divergence is the first one seen from the other side. The paths name the rules of
different trees and share only their lengths. -/
structure Divergence.Mirrors (d e : Divergence) : Prop where
  cause : e.cause = d.cause.mirror
  candidateRule : e.candidateRule = d.referenceRule
  referenceRule : e.referenceRule = d.candidateRule
  path_length : e.path.length = d.path.length

/-- Both verdicts agree, or both diverge at mirrored points. -/
inductive Verdict.Mirrors : Verdict → Verdict → Prop where
  | agree : Mirrors .agree .agree
  | diverge {d e : Divergence} (h : d.Mirrors e) : Mirrors (.diverge d) (.diverge e)

theorem Verdict.Mirrors.below {v w : Verdict} (h : v.Mirrors w) (rule other : String) :
    (v.below rule).Mirrors (w.below other) := by
  cases h with
  | agree => exact .agree
  | diverge h =>
      refine .diverge ⟨h.cause, h.candidateRule, h.referenceRule, ?_⟩
      simp [Divergence.below, h.path_length]

theorem Verdict.Mirrors.andThen {v w v' w' : Verdict} (h : v.Mirrors w) (h' : v'.Mirrors w') :
    (v.andThen v').Mirrors (w.andThen w') := by
  cases h with
  | agree => exact h'
  | diverge h => exact .diverge h

theorem mirrors_divergeAt (c r : Tree) (cause : Cause) :
    (Comparison.divergeAt c r cause).Mirrors (Comparison.divergeAt r c cause.mirror) :=
  .diverge ⟨rfl, rfl, rfl, rfl⟩

/-! ## Exchanged settings -/

namespace Concordance

variable (σ : Settings)

theorem waives_swapped (candidate reference : String) :
    (ofSettings σ).swapped.waives reference candidate =
      (ofSettings σ).waives candidate reference :=
  Correspondence.relates_ofPairs_flip σ.incomparableRules candidate reference

theorem equates_swapped (candidate reference : String) :
    (ofSettings σ).swapped.equates reference candidate =
      (ofSettings σ).equates candidate reference := by
  have hpairs : (ofSettings σ).swapped.equivalent.relates reference candidate =
      (ofSettings σ).equivalent.relates candidate reference :=
    Correspondence.relates_ofPairs_flip σ.equivalentRules candidate reference
  rw [equates, equates, hpairs, Bool.beq_comm]

theorem namesAgree_swapped (c r : Tree) :
    Comparison.namesAgree (ofSettings σ).swapped r c =
      Comparison.namesAgree (ofSettings σ) c r := by
  unfold Comparison.namesAgree
  cases c.terminal <;> cases r.terminal <;> simp [equates_swapped]

end Concordance

/-! ## Mirrored runs -/

section

variable (σ : Settings) (limit? : Option Nat)

/-- Lists whose members mirror each other pair by pair meet in mirrored verdicts. -/
theorem mirrors_meet {depth : Nat} (c r : Tree) {as bs : List Tree}
    (h : ∀ a ∈ as, ∀ b ∈ bs,
      (Comparison.compare ⟨.ofSettings σ, limit?⟩ (depth + 1) a b).verdict.Mirrors
        (Comparison.compare ⟨(Concordance.ofSettings σ).swapped, limit?⟩ (depth + 1) b a).verdict)
    (budget : Nat) :
    (Comparison.meet ⟨.ofSettings σ, limit?⟩ depth c r budget as bs).verdict.Mirrors
      (Comparison.meet ⟨(Concordance.ofSettings σ).swapped, limit?⟩ depth r c budget
        bs as).verdict := by
  induction budget generalizing as bs with
  | zero => exact .agree
  | succ budget ih =>
      cases as with
      | nil =>
          cases bs with
          | nil => exact .agree
          | cons b bs => exact mirrors_divergeAt c r .candidateExhausted
      | cons a as =>
          cases bs with
          | nil => exact mirrors_divergeAt c r .referenceExhausted
          | cons b bs =>
              have hfirst := h a List.mem_cons_self b List.mem_cons_self
              have hothers := ih fun a' ha b' hb =>
                h a' (List.mem_cons_of_mem a ha) b' (List.mem_cons_of_mem b hb)
              rw [Comparison.meet, Comparison.meet, Run.verdict_andThen, Run.verdict_andThen]
              exact (hfirst.below r.rule c.rule).andThen hothers

/-- Each check of a pair comes out the same from the other side, so the first divergence is found
at the same pair. -/
theorem mirrors_compare (depth : Nat) (c r : Tree) :
    (Comparison.compare ⟨.ofSettings σ, limit?⟩ depth c r).verdict.Mirrors
      (Comparison.compare ⟨(Concordance.ofSettings σ).swapped, limit?⟩ depth r c).verdict := by
  induction c using exposed_induction (Concordance.ofSettings σ).candidate
    generalizing depth r with
  | step c ih =>
      rw [Comparison.compare_eq, Comparison.compare_eq]
      have hdeep : Comparison.tooDeep? ⟨(Concordance.ofSettings σ).swapped, limit?⟩ depth =
          Comparison.tooDeep? ⟨.ofSettings σ, limit?⟩ depth := rfl
      have hpolicy : (Concordance.ofSettings σ).swapped.namePolicy =
          (Concordance.ofSettings σ).namePolicy := rfl
      have hleft : (Concordance.ofSettings σ).swapped.candidate =
          (Concordance.ofSettings σ).reference := rfl
      have hright : (Concordance.ofSettings σ).swapped.reference =
          (Concordance.ofSettings σ).candidate := rfl
      rw [hdeep]
      cases Comparison.tooDeep? ⟨.ofSettings σ, limit?⟩ depth with
      | some limit => exact mirrors_divergeAt c r (.depthLimit limit)
      | none =>
          dsimp only
          rw [Concordance.waives_swapped, Concordance.namesAgree_swapped, hpolicy, hleft, hright]
          split
          · exact .agree
          · split
            · exact mirrors_divergeAt c r .ruleNames
            · by_cases harity : arity (Concordance.ofSettings σ).candidate c =
                  arity (Concordance.ofSettings σ).reference r
              · rw [if_pos harity, if_pos harity.symm, harity]
                exact mirrors_meet σ limit? c r (fun a ha b _ => ih a ha (depth + 1) b) _
              · rw [if_neg harity, if_neg (Ne.symm harity)]
                exact mirrors_divergeAt c r (.childCount _ _)

/-- With the sides of the settings exchanged, the exchanged trees give the mirror image of the
verdict, under any depth limit. -/
theorem verdict_swapped_mirrors (c r : Tree) :
    (Comparison.verdict ⟨.ofSettings σ, limit?⟩ c r).Mirrors
      (Comparison.verdict ⟨(Concordance.ofSettings σ).swapped, limit?⟩ r c) := by
  rw [Comparison.verdict_eq, Comparison.verdict_eq]
  exact mirrors_compare σ limit? 0 c r

end

end TreeAccord
