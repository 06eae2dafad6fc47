import TreeAccord.Proofs.Compare.Concurrence
import TreeAccord.Proofs.Compare.Origin
import TreeAccord.Proofs.Compare.Steps
import Mathlib.Data.List.Chain

/-! # A divergence on its own

Where names are checked at every pair and no depth is too deep, a pair is compared in the same way
wherever in a run it is taken up. So the pair at which a run diverges can be compared alone, and it
diverges for the same cause; and each pair that the run settled agrees alone. -/

namespace TreeAccord

open View

namespace Comparison

variable {s : Comparison}

/-! ## Pairs that are settled -/

/-- The pairs that are settled are the ones that are taken up and agree at their depth. -/
theorem settle_mem_steps_iff {depth : Nat} {c r x y : Tree} :
    .settle x y ∈ (s.compare depth c r).steps ↔
      ∃ level, .enter level x y ∈ (s.compare depth c r).steps ∧
        (s.compare level x y).verdict = .agree := by
  induction c using exposed_induction s.concordance.candidate generalizing depth r with
  | step c ih =>
      obtain ⟨checks, starts, hsteps, hchecks, hstarts⟩ := s.exists_steps_compare depth c r
      have hsettle : .settle x y ∉ checks := by
        intro h
        rcases hchecks _ h with h | ⟨m, n, h⟩ <;> cases h
      have henter : ∀ level, .enter level x y ∉ checks := by
        intro level h
        rcases hchecks _ h with h | ⟨m, n, h⟩ <;> cases h
      have hdeeper : .settle x y ∈ s.stepsFrom (depth + 1) starts ↔
          ∃ level, .enter level x y ∈ s.stepsFrom (depth + 1) starts ∧
            (s.compare level x y).verdict = .agree := by
        simp only [stepsFrom, List.mem_flatMap]
        constructor
        · rintro ⟨start, hstart, h⟩
          obtain ⟨level, h, hagree⟩ := (ih _ (hstarts.fst_mem hstart)).mp h
          exact ⟨level, ⟨start, hstart, h⟩, hagree⟩
        · rintro ⟨level, ⟨start, hstart, h⟩, hagree⟩
          exact ⟨start, hstart, (ih _ (hstarts.fst_mem hstart)).mpr ⟨level, h, hagree⟩⟩
      rw [hsteps]
      simp only [List.mem_cons, List.mem_append, hsettle, henter, hdeeper, mem_closing_iff,
        reduceCtorEq, Step.enter.injEq, Step.settle.injEq, false_or, false_and, or_false]
      constructor
      · rintro (⟨level, h, hagree⟩ | ⟨⟨rfl, rfl⟩, hagree⟩)
        · exact ⟨level, .inr h, hagree⟩
        · exact ⟨depth, .inl ⟨rfl, rfl, rfl⟩, hagree⟩
      · rintro ⟨level, ⟨rfl, rfl, rfl⟩ | h, hagree⟩
        · exact .inr ⟨⟨rfl, rfl⟩, hagree⟩
        · exact .inl ⟨level, h, hagree⟩

/-! ## A pair on its own -/

section

variable (unlimited : s.depthLimit? = none) (every : s.concordance.namePolicy = .every)
include unlimited every

/-- What is found at a pair does not depend on the depth at which it is taken up. -/
theorem verdict_compare_depth (depth depth' : Nat) (c r : Tree) :
    (s.compare depth c r).verdict = (s.compare depth' c r).verdict := by
  induction c using exposed_induction s.concordance.candidate generalizing depth depth' r with
  | step c ih =>
      have hwithin := s.tooDeep?_of_unlimited unlimited
      have hshape : s.shapeVerdict depth c r = s.shapeVerdict depth' c r := by
        by_cases harity : arity s.concordance.candidate c = arity s.concordance.reference r
        · rw [shapeVerdict_of_eq harity, shapeVerdict_of_eq harity]
          refine verdict_meet_rel (fun _ => rfl) (fun h h' => by rw [h, h']) ?_ _
          intro a ha b _
          rw [ih a ha (depth + 1) (depth' + 1) b]
        · rw [shapeVerdict_of_ne harity, shapeVerdict_of_ne harity]
      rw [verdict_compare, verdict_compare, hwithin, hwithin, every, hshape]
      rfl

theorem verdict_compare_eq_verdict (depth : Nat) (c r : Tree) :
    (s.compare depth c r).verdict = s.verdict c r := by
  rw [verdict_eq]
  exact verdict_compare_depth unlimited every depth 0 c r

end

/-! ## The place of a divergence -/

/-- The nodes lead from one node down to another, each below the one before. -/
structure Descent (t u : Tree) (chain : List Tree) : Prop where
  first : chain.head? = some t
  last : chain.getLast? = some u
  below : chain.IsChain fun v w => w.Below v

theorem Descent.singleton (t : Tree) : Descent t t [t] := ⟨rfl, rfl, .singleton t⟩

theorem Descent.cons {t u v : Tree} {chain : List Tree} (h : Descent u v chain)
    (hbelow : u.Below t) : Descent t v (t :: chain) where
  first := rfl
  last := by rw [List.getLast?_cons, h.last]; rfl
  below := by
    refine List.isChain_cons.mpr ⟨?_, h.below⟩
    intro w hw
    obtain rfl := Option.some.inj (h.first.symm.trans hw)
    exact hbelow

variable (s) in
/-- A divergence between `c` and `r` arises at their nodes `x` and `y`: it names their rules, its path
names the nodes of a descent from `r` to `y`, and alone the two diverge at once for the same cause. -/
structure ArisesAt (c r : Tree) (d : Divergence) (x y : Tree) : Prop where
  candidate_mem : x ∈ c.preorder
  reference_mem : y ∈ r.preorder
  candidateRule : d.candidateRule = x.rule
  referenceRule : d.referenceRule = y.rule
  path : ∃ chain, Descent r y chain ∧ d.path = chain.map Tree.rule
  alone : s.verdict x y = .diverge ⟨d.cause, x.rule, y.rule, [y.rule]⟩

theorem Traced.exists_arisesAt (unlimited : s.depthLimit? = none)
    (every : s.concordance.namePolicy = .every) {depth : Nat} {c r : Tree} {d : Divergence}
    (h : s.Traced depth c r d) : ∃ x y, s.ArisesAt c r d x y := by
  induction h with
  | @here depth c r cause found _ =>
      rw [verdict_compare_eq_verdict unlimited every] at found
      exact ⟨c, r, c.mem_preorder_self, r.mem_preorder_self, rfl, rfl, ⟨[r], .singleton r, rfl⟩,
        found⟩
  | @deeper depth c r a b d _ left right _ ih =>
      obtain ⟨x, y, hx, hy, hcandidate, hreference, ⟨chain, hchain, hpath⟩, halone⟩ := ih
      refine ⟨x, y, Tree.mem_preorder_trans hx (mem_preorder_of_mem_exposed left),
        Tree.mem_preorder_trans hy (mem_preorder_of_mem_exposed right), hcandidate, hreference,
        ⟨r :: chain, hchain.cons (below_of_mem_exposed right), ?_⟩, halone⟩
      rw [Divergence.below, List.map_cons, hpath]

end Comparison

/-- If names are checked at every pair and there is no depth limit, a divergence arises at two nodes of
the trees, to which its path leads down, and the two diverge in the same way when they are compared
alone. The pairs that the run settled before are those it took up that agree alone. -/
theorem divergence_localised {s : Comparison} (unlimited : s.depthLimit? = none)
    (every : s.concordance.namePolicy = .every) {c r : Tree} {d : Divergence}
    (h : s.verdict c r = .diverge d) :
    (∃ x y, s.ArisesAt c r d x y) ∧
      ∀ x y, .settle x y ∈ (s.run c r).steps ↔
        (∃ depth, .enter depth x y ∈ (s.run c r).steps) ∧ s.verdict x y = .agree := by
  rw [Comparison.verdict_eq] at h
  refine ⟨(Comparison.traced_of_diverge h).exists_arisesAt unlimited every, fun x y => ?_⟩
  rw [Comparison.run_eq, Comparison.settle_mem_steps_iff]
  simp only [Comparison.verdict_compare_eq_verdict unlimited every, exists_and_right]

/-! ### The second of two statements -/

/-- A statement of three tokens, as a table would number it from `row` on. -/
def longStatementTree (row : Nat) : Tree :=
  .node ⟨row, "Stmt", none, "xyz", false⟩
    [.node ⟨row + 1, "X", some "ID", "x", true⟩ [], .node ⟨row + 2, "Y", some "ID", "y", true⟩ [],
      .node ⟨row + 3, "Z", some "ID", "z", true⟩ []]

/-- A function whose second statement is the longer one. -/
def unevenTree : Tree :=
  .node ⟨0, "Fun", none, "xyxyz", false⟩ [statementTree 1, longStatementTree 4]

/-- The second statements differ, below a wrapper on one side. The first ones are settled before, and
agree on their own. -/
theorem divergence_unevenTree :
    (wrapperComparison.depthLimit? = none ∧
      wrapperComparison.concordance.namePolicy = .every ∧
      wrapperComparison.verdict wrappedTree unevenTree =
        .diverge ⟨.childCount 2 3, "Stmt", "Stmt", ["Fun", "Stmt"]⟩) ∧
      (∃ x y, wrapperComparison.ArisesAt wrappedTree unevenTree
        ⟨.childCount 2 3, "Stmt", "Stmt", ["Fun", "Stmt"]⟩ x y) ∧
      wrapperComparison.verdict (statementTree 2) (statementTree 1) = .agree := by
  have hverdict : wrapperComparison.verdict wrappedTree unevenTree =
      .diverge ⟨.childCount 2 3, "Stmt", "Stmt", ["Fun", "Stmt"]⟩ := by cbv
  have hsteps : (wrapperComparison.run wrappedTree unevenTree).steps =
      [.enter 0 wrappedTree unevenTree, .count wrappedTree unevenTree 2 2,
        .enter 1 (statementTree 2) (statementTree 1), .count (statementTree 2) (statementTree 1) 2 2,
        .settle (statementTree 2) (statementTree 1),
        .enter 1 (statementTree 5) (longStatementTree 4),
        .count (statementTree 5) (longStatementTree 4) 2 3] := by cbv
  obtain ⟨harises, hsettled⟩ := divergence_localised rfl rfl hverdict
  refine ⟨⟨rfl, rfl, hverdict⟩, harises, ((hsettled _ _).mp ?_).2⟩
  rw [hsteps]
  simp

end TreeAccord
