import TreeAccord.Proofs.Compare.Lockstep
import TreeAccord.Proofs.View.Headroom

/-! # Agreement as a relation on trees

Two trees concur when their names and arities do and the nodes exposed below them concur in order.
The relation mentions neither cursors nor budgets nor the order of the checks. On sides that look
at no text and whose wrappers are visible, a run without a depth limit decides it. -/

namespace TreeAccord

open View

/-! ## The relation -/

/-- Whether the names of a pair pass at a depth: they are not checked there, or both nodes are
terminals, or neither is and their rules are equivalent. -/
def NamesPass (k : Concordance) (depth : Nat) (c r : Tree) : Prop :=
  (k.namePolicy = .root ∧ 0 < depth) ∨ (c.terminal = true ∧ r.terminal = true) ∨
    (c.terminal = false ∧ r.terminal = false ∧ k.equates c.rule r.rule = true)

theorem namesPass_iff (k : Concordance) (depth : Nat) (c r : Tree) :
    NamesPass k depth c r ↔
      (k.namePolicy.checks depth = true → Comparison.namesAgree k c r = true) := by
  have hpolicy : k.namePolicy.checks depth = true ↔ ¬(k.namePolicy = .root ∧ 0 < depth) := by
    cases k.namePolicy <;> simp [NamePolicy.checks]
  rw [hpolicy, NamesPass, Comparison.namesAgree, or_iff_not_imp_left]
  cases c.terminal <;> cases r.terminal <;> simp

/-- Two trees concur at a depth when the pair is waived, or when its names pass, its arities are
equal, and the nodes exposed on the two sides are as many and concur one by one. -/
inductive Concurs (k : Concordance) : Nat → Tree → Tree → Prop where
  | waived {depth c r} (h : k.waives c.rule r.rule = true) : Concurs k depth c r
  | met {depth c r} (names : NamesPass k depth c r)
      (arities : arity k.candidate c = arity k.reference r)
      (lengths : (exposed k.candidate c).length = (exposed k.reference r).length)
      (pairs : ∀ pair ∈ (exposed k.candidate c).zip (exposed k.reference r),
        Concurs k (depth + 1) pair.1 pair.2) : Concurs k depth c r

theorem concurs_iff (k : Concordance) (depth : Nat) (c r : Tree) :
    Concurs k depth c r ↔
      k.waives c.rule r.rule = true ∨
        NamesPass k depth c r ∧ arity k.candidate c = arity k.reference r ∧
          List.Forall₂ (Concurs k (depth + 1)) (exposed k.candidate c)
            (exposed k.reference r) := by
  rw [List.forall₂_iff_zip]
  constructor
  · intro h
    cases h with
    | waived h => exact .inl h
    | met names arities lengths pairs =>
        exact .inr ⟨names, arities, lengths, fun hab => pairs _ hab⟩
  · rintro (h | ⟨names, arities, lengths, pairs⟩)
    · exact .waived h
    · exact .met names arities lengths fun pair hpair => pairs hpair

/-! ## The run decides it -/

/-- A relation on two lists depends only on the pairs of their members. -/
theorem forall₂_congr_of_mem {R S : Tree → Tree → Prop} {as bs : List Tree}
    (h : ∀ a ∈ as, ∀ b ∈ bs, R a b ↔ S a b) : List.Forall₂ R as bs ↔ List.Forall₂ S as bs :=
  ⟨forall₂_imp_of_mem fun a ha b hb => (h a ha b hb).mp,
    forall₂_imp_of_mem fun a ha b hb => (h a ha b hb).mpr⟩

variable {s : Comparison}

/-- The budget reaches every exposed node, so a pair agrees exactly when it concurs. -/
theorem verdict_compare_eq_agree_iff_concurs (unlimited : s.depthLimit? = none)
    (textlessC : s.concordance.candidate.inspectsText = false)
    (textlessR : s.concordance.reference.inspectsText = false)
    {c r : Tree} (hc : WrappersVisible s.concordance.candidate c)
    (hr : WrappersVisible s.concordance.reference r) (depth : Nat) :
    (s.compare depth c r).verdict = .agree ↔ Concurs s.concordance depth c r := by
  induction c using exposed_induction s.concordance.candidate generalizing depth r with
  | step c ih =>
      have within := s.tooDeep?_of_unlimited unlimited depth
      rw [s.verdict_compare_eq_agree_iff within, concurs_iff, namesPass_iff,
        List.take_of_length_le (length_exposed_le_arity textlessC hc),
        List.take_of_length_le (length_exposed_le_arity textlessR hr)]
      have hpairs : ∀ a ∈ exposed s.concordance.candidate c,
          ∀ b ∈ exposed s.concordance.reference r,
            (s.compare (depth + 1) a b).verdict = .agree ↔
              Concurs s.concordance (depth + 1) a b := by
        intro a ha b hb
        exact ih a ha (hc.of_mem_preorder (mem_preorder_of_mem_exposed ha))
          (hr.of_mem_preorder (mem_preorder_of_mem_exposed hb)) (depth + 1)
      rw [forall₂_congr_of_mem hpairs]

/-- Without a depth limit, on sides that look at no text and whose wrappers are visible, two trees
are accepted exactly when they concur. The arity of a node bounds the nodes exposed below it, so no
node is left out because the budget is used up. -/
theorem accepts_iff_concurs (unlimited : s.depthLimit? = none)
    (textlessC : s.concordance.candidate.inspectsText = false)
    (textlessR : s.concordance.reference.inspectsText = false)
    {c r : Tree} (hc : WrappersVisible s.concordance.candidate c)
    (hr : WrappersVisible s.concordance.reference r) :
    (s.accepts c r = true ↔ Concurs s.concordance 0 c r) ∧
      (∀ t ∈ c.preorder,
        (exposed s.concordance.candidate t).length ≤ arity s.concordance.candidate t) ∧
      ∀ t ∈ r.preorder,
        (exposed s.concordance.reference t).length ≤ arity s.concordance.reference t := by
  refine ⟨?_, fun t ht => length_exposed_le_arity textlessC (hc.of_mem_preorder ht),
    fun t ht => length_exposed_le_arity textlessR (hr.of_mem_preorder ht)⟩
  rw [← verdict_compare_eq_agree_iff_concurs unlimited textlessC textlessR hc hr]
  exact s.accepts_iff c r

/-! ### A wrapper against its children -/

/-- A statement of two tokens, as a table would number it from `row` on. -/
def statementTree (row : Nat) : Tree :=
  .node ⟨row, "Stmt", none, "xy", false⟩
    [.node ⟨row + 1, "X", some "ID", "x", true⟩ [], .node ⟨row + 2, "Y", some "ID", "y", true⟩ []]

/-- Two statements inside a body of a function. -/
def wrappedTree : Tree :=
  .node ⟨0, "Fun", none, "xyxy", false⟩
    [.node ⟨1, "Body", none, "xyxy", false⟩ [statementTree 2, statementTree 5]]

/-- The same statements below the function itself. -/
def flatTree : Tree :=
  .node ⟨0, "Fun", none, "xyxy", false⟩ [statementTree 1, statementTree 4]

/-- Bodies are transparent on the candidate's side. -/
def wrapperComparison : Comparison where
  concordance := .ofSettings { candidate := { wrappers := [⟨"Body", none⟩] } }

theorem concurs_statementTree (depth i j : Nat) :
    Concurs wrapperComparison.concordance depth (statementTree i) (statementTree j) := by
  have hc : exposed wrapperComparison.concordance.candidate (statementTree i) = [] := by cbv
  refine .met (.inr (.inr ⟨rfl, rfl, by cbv⟩)) (by cbv) (by cbv) ?_
  rw [hc]
  simp

theorem concurs_wrappedTree : Concurs wrapperComparison.concordance 0 wrappedTree flatTree := by
  have hc : exposed wrapperComparison.concordance.candidate wrappedTree =
      [statementTree 2, statementTree 5] := by cbv
  have hr : exposed wrapperComparison.concordance.reference flatTree =
      [statementTree 1, statementTree 4] := by cbv
  refine .met (.inr (.inr ⟨rfl, rfl, by decide⟩)) (by cbv) (by rw [hc, hr]; rfl) ?_
  rw [hc, hr]
  intro pair hpair
  simp only [List.zip_cons_cons, List.zip_nil_left, List.mem_cons, List.not_mem_nil,
    or_false] at hpair
  rcases hpair with rfl | rfl
  · exact concurs_statementTree 1 2 1
  · exact concurs_statementTree 1 5 4

/-- The function with a body is accepted against the function without. -/
theorem accepts_wrappedTree :
    wrapperComparison.depthLimit? = none ∧
      WrappersVisible wrapperComparison.concordance.candidate wrappedTree ∧
      WrappersVisible wrapperComparison.concordance.reference flatTree ∧
      wrapperComparison.accepts wrappedTree flatTree = true := by
  have hc : WrappersVisible wrapperComparison.concordance.candidate wrappedTree := by
    unfold WrappersVisible
    decide
  have hr : WrappersVisible wrapperComparison.concordance.reference flatTree := by
    unfold WrappersVisible
    decide
  exact ⟨rfl, hc, hr, (accepts_iff_concurs rfl rfl rfl hc hr).1.mpr concurs_wrappedTree⟩

end TreeAccord
