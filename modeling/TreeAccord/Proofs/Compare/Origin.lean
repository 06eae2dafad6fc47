import TreeAccord.Proofs.Compare.Lockstep
import TreeAccord.Proofs.View.Branching

/-! # Where a divergence arises

On its way up a divergence keeps its cause and its two rules. It arises at a pair that fails a check,
and that pair is reached from the topmost one through exposed nodes, on both sides one level at a
time. Each level adds one name to the path. -/

namespace TreeAccord

open View

namespace Comparison

variable (s : Comparison)

/-- What a run from a pair finds arises at the pair itself or at a pair exposed below it. Only the
first check, the one of the depth, gives the depth as the cause. -/
inductive Traced : Nat → Tree → Tree → Divergence → Prop where
  | here {depth : Nat} {c r : Tree} {cause : Cause}
      (found : (s.compare depth c r).verdict = divergeAt c r cause)
      (tooDeep : ∀ limit, cause = .depthLimit limit → s.tooDeep? depth = some limit) :
      Traced depth c r ⟨cause, c.rule, r.rule, [r.rule]⟩
  | deeper {depth : Nat} {c r a b : Tree} {d : Divergence} (within : s.tooDeep? depth = none)
      (left : a ∈ exposed s.concordance.candidate c)
      (right : b ∈ exposed s.concordance.reference r)
      (h : Traced (depth + 1) a b d) : Traced depth c r (d.below r.rule)

variable {s} {depth : Nat} {c r : Tree} {d : Divergence}

/-! ## Tracing a divergence -/

/-- Two lists that do not meet in agreement are of different lengths, or they hold a pair that
diverges. -/
theorem diverge_of_meet {budget : Nat} {as bs : List Tree}
    (h : (s.meet depth c r budget as bs).verdict = .diverge d) :
    (∃ cause, .diverge d = divergeAt c r cause ∧ ∀ limit, cause ≠ .depthLimit limit) ∨
      ∃ a ∈ as, ∃ b ∈ bs, ∃ e, (s.compare (depth + 1) a b).verdict = .diverge e ∧
        d = e.below r.rule := by
  induction budget generalizing as bs with
  | zero => cases h
  | succ budget ih =>
      cases as with
      | nil =>
          cases bs with
          | nil => cases h
          | cons b bs => exact .inl ⟨.candidateExhausted, h.symm, fun _ => Cause.noConfusion⟩
      | cons a as =>
          cases bs with
          | nil => exact .inl ⟨.referenceExhausted, h.symm, fun _ => Cause.noConfusion⟩
          | cons b bs =>
              rw [meet, Run.verdict_andThen] at h
              cases hfirst : (s.compare (depth + 1) a b).verdict with
              | diverge e =>
                  rw [hfirst] at h
                  obtain rfl := Verdict.diverge.inj h
                  exact .inr ⟨a, List.mem_cons_self, b, List.mem_cons_self, e, hfirst, rfl⟩
              | agree =>
                  rw [hfirst] at h
                  rcases ih h with hlengths | ⟨a', ha, b', hb, hpair⟩
                  · exact .inl hlengths
                  · exact .inr ⟨a', List.mem_cons_of_mem a ha, b', List.mem_cons_of_mem b hb, hpair⟩

/-- Below the names, a pair fails by its own shape or by a pair exposed below it. -/
theorem diverge_of_shapeVerdict (h : s.shapeVerdict depth c r = .diverge d) :
    (∃ cause, .diverge d = divergeAt c r cause ∧ ∀ limit, cause ≠ .depthLimit limit) ∨
      ∃ a ∈ exposed s.concordance.candidate c, ∃ b ∈ exposed s.concordance.reference r, ∃ e,
        (s.compare (depth + 1) a b).verdict = .diverge e ∧ d = e.below r.rule := by
  by_cases harity : arity s.concordance.candidate c = arity s.concordance.reference r
  · rw [shapeVerdict_of_eq harity] at h
    exact diverge_of_meet h
  · rw [shapeVerdict_of_ne harity] at h
    exact .inl ⟨_, h.symm, fun _ => Cause.noConfusion⟩

theorem Traced.of_divergeAt {cause : Cause}
    (found : (s.compare depth c r).verdict = .diverge d)
    (hd : Verdict.diverge d = divergeAt c r cause)
    (tooDeep : ∀ limit, cause = .depthLimit limit → s.tooDeep? depth = some limit) :
    s.Traced depth c r d := by
  rw [hd] at found
  obtain rfl := Verdict.diverge.inj hd
  exact .here found tooDeep

/-- Every divergence is traced to the pair at which it arises. -/
theorem traced_of_diverge (found : (s.compare depth c r).verdict = .diverge d) :
    s.Traced depth c r d := by
  induction c using exposed_induction s.concordance.candidate generalizing depth r d with
  | step c ih =>
      have h := found
      rw [verdict_compare] at h
      cases hdeep : s.tooDeep? depth with
      | some limit =>
          rw [hdeep] at h
          exact .of_divergeAt found h.symm fun limit' hcause => by
            rw [hdeep, Cause.depthLimit.inj hcause]
      | none =>
          rw [hdeep] at h
          dsimp only at h
          cases hwaives : s.concordance.waives c.rule r.rule with
          | true =>
              rw [hwaives] at h
              cases h
          | false =>
              rw [hwaives, cond_false] at h
              cases hnames : s.concordance.namePolicy.checks depth &&
                  !namesAgree s.concordance c r with
              | true =>
                  rw [hnames] at h
                  exact .of_divergeAt found h.symm fun _ => Cause.noConfusion
              | false =>
                  rw [hnames, cond_false] at h
                  rcases diverge_of_shapeVerdict h with
                    ⟨cause, hd, hcause⟩ | ⟨a, ha, b, hb, e, hpair, rfl⟩
                  · exact .of_divergeAt found hd fun limit hlimit => absurd hlimit (hcause limit)
                  · exact .deeper hdeep ha hb (ih a ha hpair)

namespace Traced

/-- Each level of the path but the last is one that has nodes below it. -/
theorem length_path_le (h : s.Traced depth c r d) :
    d.path.length ≤ max 1 c.height ∧ d.path.length ≤ max 1 r.height := by
  induction h with
  | here found tooDeep => exact ⟨Nat.le_max_left _ _, Nat.le_max_left _ _⟩
  | deeper within left right h ih =>
      have hleft := (below_of_mem_exposed left).height_lt
      have hright := (below_of_mem_exposed right).height_lt
      have hleftPos := height_pos_of_mem_exposed left
      have hrightPos := height_pos_of_mem_exposed right
      rw [Divergence.below, List.length_cons]
      omega

end Traced

end Comparison

end TreeAccord
