import TreeAccord.Proofs.Cli.Tallies
import TreeAccord.Proofs.Compare.Lockstep

/-! # The two name policies

Both policies check the topmost pair, and below it only one of them looks at names. Their runs take
the same course up to the first pair below the top whose names do not correspond. There the stricter
run ends. -/

namespace TreeAccord

open View

/-! ## Verdicts of two runs in step -/

/-- At a pair of the given depth, the first run found what the second one did, or it ended at names
that the second one does not check. Such names lie below the topmost pair. -/
inductive Verdict.Stricter (depth : Nat) : Verdict → Verdict → Prop where
  | same (v : Verdict) : Stricter depth v v
  | nested {d : Divergence} (w : Verdict) (cause : d.cause = .ruleNames)
      (deep : 2 ≤ depth + d.path.length) : Stricter depth (.diverge d) w

namespace Verdict.Stricter

variable {depth : Nat} {v w v' w' : Verdict}

theorem below (h : Stricter (depth + 1) v w) (rule : String) :
    Stricter depth (v.below rule) (w.below rule) := by
  cases h with
  | same v => exact .same _
  | @nested d w cause deep =>
      refine .nested _ cause ?_
      rw [Divergence.below, List.length_cons]
      omega

theorem andThen (h : Stricter depth v w) (h' : Stricter depth v' w') :
    Stricter depth (v.andThen v') (w.andThen w') := by
  cases h with
  | same v =>
      cases v with
      | agree => exact h'
      | diverge d => exact .same _
  | nested w cause deep => exact .nested _ cause deep

theorem isAgreement (h : Stricter depth v w) (hv : v.isAgreement = true) :
    w.isAgreement = true := by
  cases h with
  | same v => exact hv
  | nested w cause deep => cases hv

end Verdict.Stricter

/-- A mismatch of names is reported only at a depth at which the policy checks them. -/
def Verdict.NamesChecked (policy : NamePolicy) (depth : Nat) (v : Verdict) : Prop :=
  ∀ d, v = .diverge d → d.cause = .ruleNames →
    ∃ levels, d.path.length = levels + 1 ∧ policy.checks (depth + levels) = true

namespace Verdict.NamesChecked

variable {policy : NamePolicy} {depth : Nat} {v w : Verdict}

theorem agree : NamesChecked policy depth .agree := by
  intro d hd
  cases hd

/-- The other causes say nothing about names. -/
theorem divergeAt {cause : Cause} (h : cause ≠ .ruleNames) (c r : Tree) :
    NamesChecked policy depth (Comparison.divergeAt c r cause) := by
  intro d hd hcause
  obtain rfl := Verdict.diverge.inj hd
  exact absurd hcause h

theorem below (h : NamesChecked policy (depth + 1) v) (rule : String) :
    NamesChecked policy depth (v.below rule) := by
  cases v with
  | agree => exact agree
  | diverge e =>
      intro d hd hcause
      obtain rfl := Verdict.diverge.inj hd
      obtain ⟨levels, hlength, hchecks⟩ := h e rfl hcause
      refine ⟨levels + 1, ?_, ?_⟩
      · rw [Divergence.below, List.length_cons, hlength]
      · rw [← Nat.add_assoc, Nat.add_right_comm]
        exact hchecks

theorem andThen (h : NamesChecked policy depth v) (h' : NamesChecked policy depth w) :
    NamesChecked policy depth (v.andThen w) := by
  cases v with
  | agree => exact h'
  | diverge d => exact h

end Verdict.NamesChecked

namespace Comparison

/-! ## Where names are reported -/

section

variable (s : Comparison)

theorem namesChecked_meet {depth : Nat} (c r : Tree) {as bs : List Tree}
    (h : ∀ a ∈ as, ∀ b, Verdict.NamesChecked s.concordance.namePolicy (depth + 1)
      (s.compare (depth + 1) a b).verdict) (budget : Nat) :
    Verdict.NamesChecked s.concordance.namePolicy depth
      (s.meet depth c r budget as bs).verdict := by
  induction budget generalizing as bs with
  | zero => exact .agree
  | succ budget ih =>
      cases as with
      | nil =>
          cases bs with
          | nil => exact .agree
          | cons b bs => exact .divergeAt Cause.noConfusion c r
      | cons a as =>
          cases bs with
          | nil => exact .divergeAt Cause.noConfusion c r
          | cons b bs =>
              rw [meet, Run.verdict_andThen]
              exact ((h a List.mem_cons_self b).below r.rule).andThen
                (ih fun a' ha => h a' (List.mem_cons_of_mem a ha))

theorem namesChecked_compare (depth : Nat) (c r : Tree) :
    Verdict.NamesChecked s.concordance.namePolicy depth (s.compare depth c r).verdict := by
  induction c using exposed_induction s.concordance.candidate generalizing depth r with
  | step c ih =>
      have hshape : Verdict.NamesChecked s.concordance.namePolicy depth
          (s.shapeVerdict depth c r) := by
        by_cases harity : arity s.concordance.candidate c = arity s.concordance.reference r
        · rw [shapeVerdict_of_eq harity]
          exact s.namesChecked_meet c r (fun a ha b => ih a ha (depth + 1) b) _
        · rw [shapeVerdict_of_ne harity]
          exact .divergeAt Cause.noConfusion c r
      rw [verdict_compare]
      cases s.tooDeep? depth with
      | some limit => exact .divergeAt Cause.noConfusion c r
      | none =>
          cases s.concordance.waives c.rule r.rule with
          | true => exact .agree
          | false =>
              cases hnames : s.concordance.namePolicy.checks depth &&
                  !namesAgree s.concordance c r with
              | false => exact hshape
              | true =>
                  intro d hd _
                  obtain rfl := Verdict.diverge.inj hd
                  exact ⟨0, rfl, (Bool.and_eq_true_iff.mp hnames).1⟩

end

/-! ## Runs under the two policies -/

variable (k : Concordance) (limit? : Option Nat)

/-- The comparison that checks names at every pair. -/
def strict : Comparison := ⟨k.withPolicy .every, limit?⟩

/-- The comparison that checks names at the topmost pair only. -/
def lenient : Comparison := ⟨k.withPolicy .root, limit?⟩

/-- The checks of a pair differ only in the names, and there only below the top. -/
theorem stricter_compare (depth : Nat) (c r : Tree) :
    Verdict.Stricter depth ((strict k limit?).compare depth c r).verdict
      ((lenient k limit?).compare depth c r).verdict := by
  induction c using exposed_induction k.candidate generalizing depth r with
  | step c ih =>
      have hshape : Verdict.Stricter depth ((strict k limit?).shapeVerdict depth c r)
          ((lenient k limit?).shapeVerdict depth c r) := by
        by_cases harity : arity k.candidate c = arity k.reference r
        · rw [shapeVerdict_of_eq harity, shapeVerdict_of_eq harity]
          exact verdict_meet_rel (fun _ => .same _) .andThen
            (fun a ha b _ => (ih a ha (depth + 1) b).below r.rule) _
        · rw [shapeVerdict_of_ne harity, shapeVerdict_of_ne harity]
          exact .same _
      have hdeep : (lenient k limit?).tooDeep? depth = (strict k limit?).tooDeep? depth := rfl
      have hwaives : (lenient k limit?).concordance.waives c.rule r.rule =
          (strict k limit?).concordance.waives c.rule r.rule := rfl
      have hagree : namesAgree (lenient k limit?).concordance c r =
          namesAgree (strict k limit?).concordance c r := rfl
      rw [verdict_compare, verdict_compare, hdeep, hwaives, hagree]
      cases (strict k limit?).tooDeep? depth with
      | some limit => exact .same _
      | none =>
          cases (strict k limit?).concordance.waives c.rule r.rule with
          | true => exact .same _
          | false =>
              cases namesAgree (strict k limit?).concordance c r with
              | true => simpa only [Bool.not_true, Bool.and_false, cond_false] using hshape
              | false =>
                  cases depth with
                  | zero => exact .same _
                  | succ depth => exact .nested _ rfl (by simp)

/-- What is accepted with names checked at every pair is accepted with names checked at the top. -/
theorem accepts_lenient {c r : Tree} (h : (strict k limit?).accepts c r = true) :
    (lenient k limit?).accepts c r = true := by
  rw [accepts, verdict_eq] at h ⊢
  exact (stricter_compare k limit? 0 c r).isAgreement h

/-- Where the policies come to different verdicts, the stricter one is the one that rejects. -/
theorem rejects_strict_accepts_lenient {c r : Tree}
    (h : (strict k limit?).accepts c r ≠ (lenient k limit?).accepts c r) :
    (strict k limit?).accepts c r = false ∧ (lenient k limit?).accepts c r = true := by
  have himp := accepts_lenient k limit? (c := c) (r := r)
  cases hstrict : (strict k limit?).accepts c r with
  | true => exact absurd (hstrict.trans (himp hstrict).symm) h
  | false =>
      rw [hstrict] at h
      exact ⟨rfl, by simpa using h.symm⟩

end Comparison

/-! ## Notes of a batch -/

namespace Cli

/-- The note on a fixture that the other policy judges otherwise, by the policy of the batch. -/
def policyNote (p : Palette) : NamePolicy → String
  | .every => "  " ++ p.red ++ "[passes with --name-check root]" ++ p.reset
  | .root => "  " ++ p.red ++ "[fails with --name-check every]" ++ p.reset

theorem disagreementNote_every (p : Palette) :
    disagreementNote p NamePolicy.every.other true = policyNote p .every := by
  have hwords : "[" ++ ("passes" ++ (" with --name-check " ++ ("root" ++ "]"))) =
      "[passes with --name-check root]" := by decide
  simp only [disagreementNote, policyNote, NamePolicy.other, NamePolicy.name, if_true,
    String.append_assoc, ← hwords]

theorem disagreementNote_root (p : Palette) :
    disagreementNote p NamePolicy.root.other false = policyNote p .root := by
  have hwords : "[" ++ ("fails" ++ (" with --name-check " ++ ("every" ++ "]"))) =
      "[fails with --name-check every]" := by decide
  simp only [disagreementNote, policyNote, NamePolicy.other, NamePolicy.name, Bool.false_eq_true,
    if_false, String.append_assoc, ← hwords]

/-- What a batch writes on one fixture: its label, the verdict on it and, if the other policy comes to
another one, the note of the batch's own policy. -/
def fixtureLine (plan : BatchPlan) (name : String) (passed disagrees : Bool) : String :=
  let p := Palette.ofFlag plan.colored
  padTo labelColumns (dotted name plan.candidateExt ++ ":")
    ++ (if passed then p.green ++ "Test passed" ++ p.reset else "Test failed")
    ++ (if disagrees then policyNote p plan.concordance.namePolicy else "")
    ++ "\n"

/-- Two policies that disagree on a fixture do so in one way only. -/
theorem disagreementNote_eq {plan : BatchPlan} {fixture : Fixture}
    (h : (fixture.verdict plan.other).isAgreement ≠ (fixture.verdict plan.primary).isAgreement)
    (p : Palette) :
    disagreementNote p plan.concordance.namePolicy.other
      (fixture.verdict plan.other).isAgreement = policyNote p plan.concordance.namePolicy := by
  have honly := Comparison.rejects_strict_accepts_lenient plan.concordance plan.depthLimit?
    (c := fixture.candidate.tree) (r := fixture.reference.tree)
  have hprimary : plan.primary =
      ⟨plan.concordance.withPolicy plan.concordance.namePolicy, plan.depthLimit?⟩ := rfl
  rw [hprimary, BatchPlan.other] at h
  rw [BatchPlan.other]
  cases hpolicy : plan.concordance.namePolicy with
  | every =>
      rw [hpolicy] at h
      obtain ⟨-, hpasses⟩ := honly h.symm
      rw [← disagreementNote_every, ← hpasses]
      rfl
  | root =>
      rw [hpolicy] at h
      obtain ⟨hfails, -⟩ := honly h
      rw [← disagreementNote_root, ← hfails]
      rfl

theorem line_judge (plan : BatchPlan) (name : String) (loaded : Except LoadError Fixture) :
    (plan.judge name loaded).line =
      fixtureLine plan name (plan.judge name loaded).passed (plan.judge name loaded).disagrees := by
  cases loaded with
  | error e => simp [BatchPlan.judge, fixtureLine, verdictText]
  | ok fixture =>
      have hpassed : (plan.judge name (.ok fixture)).passed =
          (fixture.verdict plan.primary).isAgreement := rfl
      have hdisagrees : (plan.judge name (.ok fixture)).disagrees =
          (plan.policyDiff && (fixture.verdict plan.other).isAgreement !=
            (fixture.verdict plan.primary).isAgreement) := rfl
      rw [hpassed, hdisagrees]
      simp only [BatchPlan.judge]
      cases hd : plan.policyDiff && (fixture.verdict plan.other).isAgreement !=
          (fixture.verdict plan.primary).isAgreement with
      | true =>
          have hne : (fixture.verdict plan.other).isAgreement ≠
              (fixture.verdict plan.primary).isAgreement := by
            simpa using (Bool.and_eq_true_iff.mp hd).2
          rw [if_pos rfl, disagreementNote_eq hne]
          rfl
      | false => rfl

end Cli

/-- With names checked at every pair, a run finds what it finds with names checked at the top, unless
it ends at names that differ below the topmost pair. So what the stricter policy accepts the other one
accepts too, the other one reports names only at the top, and a batch notes on a fixture nothing but
that it would pass under the laxer policy, or fail under the stricter one: the line of its result says
no more, and that result is what the batch adds to its tally. -/
theorem policies_differ_at_nested_names (k : Concordance) (limit? : Option Nat) (c r : Tree) :
    ((Comparison.strict k limit?).verdict c r = (Comparison.lenient k limit?).verdict c r ∨
      ∃ d, (Comparison.strict k limit?).verdict c r = .diverge d ∧ d.cause = .ruleNames ∧
        2 ≤ d.path.length) ∧
    ((Comparison.strict k limit?).accepts c r = true →
      (Comparison.lenient k limit?).accepts c r = true) ∧
    (∀ d, (Comparison.lenient k limit?).verdict c r = .diverge d → d.cause = .ruleNames →
      d.path.length = 1) ∧
    ∀ (plan : Cli.BatchPlan) (name : String) (loaded : Except Cli.LoadError Cli.Fixture),
      (plan.judge name loaded).line = Cli.fixtureLine plan name (plan.judge name loaded).passed
        (plan.judge name loaded).disagrees ∧
      ∀ tally : Cli.BatchTally, plan.conclude (plan.announce tally name) name loaded =
        tally.add name (plan.judge name loaded) := by
  refine ⟨?_, Comparison.accepts_lenient k limit?, ?_, fun plan name loaded =>
    ⟨Cli.line_judge plan name loaded, fun tally => plan.conclude_announce tally name loaded⟩⟩
  · have hstricter : Verdict.Stricter 0 ((Comparison.strict k limit?).verdict c r)
        ((Comparison.lenient k limit?).verdict c r) := by
      rw [Comparison.verdict_eq, Comparison.verdict_eq]
      exact Comparison.stricter_compare k limit? 0 c r
    generalize (Comparison.strict k limit?).verdict c r = v at hstricter ⊢
    cases hstricter with
    | same v => exact .inl rfl
    | nested w cause deep => exact .inr ⟨_, rfl, cause, by simpa using deep⟩
  · intro d hd hcause
    rw [Comparison.verdict_eq] at hd
    obtain ⟨levels, hlength, hchecks⟩ :=
      (Comparison.lenient k limit?).namesChecked_compare 0 c r d hd hcause
    rw [Nat.zero_add] at hchecks
    have htop : levels = 0 := eq_of_beq hchecks
    rw [hlength, htop]

end TreeAccord
