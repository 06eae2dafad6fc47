import TreeAccord.Proofs.Compare.Paths
import TreeAccord.Proofs.View.Enumeration
import Mathlib.Data.List.Forall2

/-! # Comparing lists of exposed nodes

A run keeps two cursors. What it finds depends only on the nodes that they still hold, so a pair is
compared by meeting two lists, and what is proved of a run goes by induction on exposed nodes. -/

namespace TreeAccord

open View

/-! ## Verdicts of composed runs -/

/-- The first divergence of two verdicts. -/
def Verdict.andThen : Verdict → Verdict → Verdict
  | .agree, v => v
  | .diverge d, _ => .diverge d

@[simp] theorem Verdict.andThen_eq_agree_iff (v w : Verdict) :
    v.andThen w = .agree ↔ v = .agree ∧ w = .agree := by
  cases v <;> simp [andThen]

@[simp] theorem Verdict.isAgreement_eq_true_iff (v : Verdict) :
    v.isAgreement = true ↔ v = .agree := by
  cases v <;> simp [isAgreement]

@[simp] theorem Run.verdict_after (steps : List Step) (run : Run) :
    (run.after steps).verdict = run.verdict := rfl

@[simp] theorem Run.verdict_andThen (first : Run) (second : Unit → Run) :
    (first.andThen second).verdict = first.verdict.andThen (second ()).verdict := by
  obtain ⟨steps, verdict⟩ := first
  cases verdict <;> rfl

theorem Run.steps_andThen (first : Run) (second : Unit → Run) :
    (first.andThen second).steps =
      first.steps ++ if first.verdict.isAgreement then (second ()).steps else [] := by
  obtain ⟨steps, verdict⟩ := first
  cases verdict with
  | agree => rfl
  | diverge d => exact (List.append_nil _).symm

/-! ## Lists pair by pair -/

/-- What follows pair by pair follows for two lists. -/
theorem forall₂_imp_of_mem {R S : Tree → Tree → Prop} {as bs : List Tree}
    (h : ∀ a ∈ as, ∀ b ∈ bs, R a b → S a b) (hpairs : List.Forall₂ R as bs) :
    List.Forall₂ S as bs := by
  rw [List.forall₂_iff_zip] at hpairs ⊢
  refine ⟨hpairs.1, fun {a b} hab => ?_⟩
  exact h a (List.of_mem_zip hab).1 b (List.of_mem_zip hab).2 (hpairs.2 hab)

namespace Comparison

variable (s : Comparison)

/-! ## The limit -/

theorem tooDeep?_eq_some_iff {depth limit : Nat} :
    s.tooDeep? depth = some limit ↔ s.depthLimit? = some limit ∧ limit < depth := by
  simp [tooDeep?]

theorem tooDeep?_of_unlimited (unlimited : s.depthLimit? = none) (depth : Nat) :
    s.tooDeep? depth = none := by
  rw [tooDeep?, unlimited]
  rfl

/-! ## Cursors give way to lists -/

/-- What a walk below the pair `c` and `r` finds when its cursors hold these nodes. -/
def meet (depth : Nat) (c r : Tree) : Nat → List Tree → List Tree → Run
  | 0, _, _ => ⟨[.settle c r], .agree⟩
  | _ + 1, [], [] => ⟨[.settle c r], .agree⟩
  | _ + 1, [], _ :: _ => ⟨[], divergeAt c r .candidateExhausted⟩
  | _ + 1, _ :: _, [] => ⟨[], divergeAt c r .referenceExhausted⟩
  | budget + 1, a :: as, b :: bs =>
    let inner := s.compare (depth + 1) a b
    Run.andThen ⟨inner.steps, inner.verdict.below r.rule⟩ fun _ => meet depth c r budget as bs

theorem walk_eq_meet (depth : Nat) (c r : Tree) (budget : Nat) (left right : Cursor) :
    s.walk depth c r budget left right =
      s.meet depth c r budget (left.rest s.concordance.candidate)
        (right.rest s.concordance.reference) := by
  induction budget generalizing left right with
  | zero =>
      rw [walk]
      rfl
  | succ budget ih =>
      rw [walk]
      split
      · rename_i hl hr
        rw [Cursor.rest_eq_nil_of_advance hl, Cursor.rest_eq_nil_of_advance hr]
        rfl
      · rename_i hl hr
        rw [Cursor.rest_eq_nil_of_advance hl, Cursor.rest_eq_cons_of_advance hr]
        rfl
      · rename_i hl hr
        rw [Cursor.rest_eq_cons_of_advance hl, Cursor.rest_eq_nil_of_advance hr]
        rfl
      · rename_i hl hr
        rw [Cursor.rest_eq_cons_of_advance hl, Cursor.rest_eq_cons_of_advance hr, meet]
        simp only [ih]

/-- A pair is compared by its names and arities, and then by meeting the nodes exposed below it. -/
theorem compare_eq (depth : Nat) (c r : Tree) :
    s.compare depth c r =
      match s.tooDeep? depth with
      | some limit => ⟨[.enter depth c r], divergeAt c r (.depthLimit limit)⟩
      | none =>
        if s.concordance.waives c.rule r.rule then
          ⟨[.enter depth c r, .waive c r, .settle c r], .agree⟩
        else if s.concordance.namePolicy.checks depth && !namesAgree s.concordance c r then
          ⟨[.enter depth c r], divergeAt c r .ruleNames⟩
        else
          let m := arity s.concordance.candidate c
          let n := arity s.concordance.reference r
          if m = n then
            (s.meet depth c r m (exposed s.concordance.candidate c)
              (exposed s.concordance.reference r)).after [.enter depth c r, .count c r m n]
          else ⟨[.enter depth c r, .count c r m n], divergeAt c r (.childCount m n)⟩ := by
  rw [compare]
  cases s.tooDeep? depth with
  | some limit => rfl
  | none => simp only [walk_eq_meet, Cursor.rest_before]

/-- What is found at a pair whose names pass. -/
def shapeVerdict (depth : Nat) (c r : Tree) : Verdict :=
  if arity s.concordance.candidate c = arity s.concordance.reference r then
    (s.meet depth c r (arity s.concordance.candidate c) (exposed s.concordance.candidate c)
      (exposed s.concordance.reference r)).verdict
  else
    divergeAt c r
      (.childCount (arity s.concordance.candidate c) (arity s.concordance.reference r))

section

variable {s} {depth : Nat} {c r : Tree}

theorem shapeVerdict_of_eq
    (h : arity s.concordance.candidate c = arity s.concordance.reference r) :
    s.shapeVerdict depth c r =
      (s.meet depth c r (arity s.concordance.candidate c) (exposed s.concordance.candidate c)
        (exposed s.concordance.reference r)).verdict :=
  if_pos h

theorem shapeVerdict_of_ne
    (h : arity s.concordance.candidate c ≠ arity s.concordance.reference r) :
    s.shapeVerdict depth c r =
      divergeAt c r
        (.childCount (arity s.concordance.candidate c) (arity s.concordance.reference r)) :=
  if_neg h

end

/-- What is found at a pair, check by check. -/
theorem verdict_compare (depth : Nat) (c r : Tree) :
    (s.compare depth c r).verdict =
      match s.tooDeep? depth with
      | some limit => divergeAt c r (.depthLimit limit)
      | none =>
        bif s.concordance.waives c.rule r.rule then .agree
        else bif s.concordance.namePolicy.checks depth && !namesAgree s.concordance c r then
          divergeAt c r .ruleNames
        else s.shapeVerdict depth c r := by
  rw [compare_eq]
  cases s.tooDeep? depth with
  | some limit => rfl
  | none =>
      simp only [Bool.cond_eq_ite, shapeVerdict]
      split
      · rfl
      split
      · rfl
      split <;> rfl

/-! ## Two runs side by side -/

/-- Two runs that meet the same nodes are related if they are so wherever they go deeper. -/
theorem verdict_meet_rel {Rel : Verdict → Verdict → Prop} (same : ∀ v, Rel v v)
    (andThen : ∀ {v w v' w'}, Rel v w → Rel v' w' → Rel (v.andThen v') (w.andThen w'))
    {s s' : Comparison} {depth depth' : Nat} {c r : Tree} {as bs : List Tree}
    (h : ∀ a ∈ as, ∀ b ∈ bs, Rel ((s.compare (depth + 1) a b).verdict.below r.rule)
      ((s'.compare (depth' + 1) a b).verdict.below r.rule)) (budget : Nat) :
    Rel (s.meet depth c r budget as bs).verdict (s'.meet depth' c r budget as bs).verdict := by
  induction budget generalizing as bs with
  | zero => exact same _
  | succ budget ih =>
      cases as with
      | nil => cases bs <;> exact same _
      | cons a as =>
          cases bs with
          | nil => exact same _
          | cons b bs =>
              rw [meet, meet, Run.verdict_andThen, Run.verdict_andThen]
              exact andThen (h a List.mem_cons_self b List.mem_cons_self)
                (ih fun a' ha b' hb =>
                  h a' (List.mem_cons_of_mem a ha) b' (List.mem_cons_of_mem b hb))

/-! ## Agreement -/

theorem accepts_iff (c r : Tree) : s.accepts c r = true ↔ (s.compare 0 c r).verdict = .agree := by
  rw [accepts, verdict_eq, Verdict.isAgreement_eq_true_iff]

/-- Two lists meet in agreement exactly when they agree pair by pair as far as the budget
reaches. -/
theorem verdict_meet_eq_agree_iff (depth : Nat) (c r : Tree) (budget : Nat) (as bs : List Tree) :
    (s.meet depth c r budget as bs).verdict = .agree ↔
      List.Forall₂ (fun a b => (s.compare (depth + 1) a b).verdict = .agree)
        (as.take budget) (bs.take budget) := by
  induction budget generalizing as bs with
  | zero => simp [meet]
  | succ budget ih =>
      cases as with
      | nil => cases bs <;> simp [meet, divergeAt]
      | cons a as =>
          cases bs with
          | nil => simp [meet, divergeAt]
          | cons b bs => simp [meet, ih]

/-- A pair within the depth limit agrees when it is waived, or when its names and arities agree
and the nodes exposed below it meet in agreement. -/
theorem verdict_compare_eq_agree_iff {depth : Nat} (within : s.tooDeep? depth = none)
    (c r : Tree) :
    (s.compare depth c r).verdict = .agree ↔
      s.concordance.waives c.rule r.rule = true ∨
        (s.concordance.namePolicy.checks depth = true → namesAgree s.concordance c r = true) ∧
          arity s.concordance.candidate c = arity s.concordance.reference r ∧
          List.Forall₂ (fun a b => (s.compare (depth + 1) a b).verdict = .agree)
            ((exposed s.concordance.candidate c).take (arity s.concordance.candidate c))
            ((exposed s.concordance.reference r).take (arity s.concordance.reference r)) := by
  rw [compare_eq, within]
  dsimp only
  split
  · rename_i hw
    simp [hw]
  · rename_i hw
    split
    · rename_i hn
      simp only [Bool.and_eq_true, Bool.not_eq_true'] at hn
      simp [hw, hn, divergeAt]
    · rename_i hn
      simp only [Bool.and_eq_true, Bool.not_eq_true', not_and, Bool.not_eq_false] at hn
      split
      · rename_i ha
        rw [Run.verdict_after, verdict_meet_eq_agree_iff, ← ha]
        constructor
        · intro h
          exact .inr ⟨hn, rfl, h⟩
        · rintro (h | ⟨-, -, h⟩)
          · exact absurd h hw
          · exact h
      · rename_i ha
        simp [hw, ha, divergeAt]

end Comparison

end TreeAccord
