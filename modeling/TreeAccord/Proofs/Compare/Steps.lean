import TreeAccord.Proofs.Compare.Lockstep

/-! # The steps of a run

A run takes up its pair and checks it. Then it goes through pairs of exposed nodes, on both sides from
left to right, one run after another, and settles the pair if there is agreement. -/

namespace TreeAccord

open View

namespace Comparison

/-! ## Pairs in order -/

/-- The pairs couple nodes of two lists, on both sides from left to right. -/
structure Coupled (as bs : List Tree) (pairs : List (Tree × Tree)) : Prop where
  candidates : (pairs.map Prod.fst).Sublist as
  references : (pairs.map Prod.snd).Sublist bs

namespace Coupled

theorem nil (as bs : List Tree) : Coupled as bs [] := ⟨List.nil_sublist as, List.nil_sublist bs⟩

variable {as bs : List Tree} {pairs : List (Tree × Tree)} (h : Coupled as bs pairs)
include h

theorem cons (a b : Tree) : Coupled (a :: as) (b :: bs) ((a, b) :: pairs) :=
  ⟨h.candidates.cons_cons a, h.references.cons_cons b⟩

theorem fst_mem {pair : Tree × Tree} (hpair : pair ∈ pairs) : pair.1 ∈ as :=
  h.candidates.subset (List.mem_map_of_mem hpair)

theorem snd_mem {pair : Tree × Tree} (hpair : pair ∈ pairs) : pair.2 ∈ bs :=
  h.references.subset (List.mem_map_of_mem hpair)

end Coupled

/-! ## The course of a run -/

variable (s : Comparison)

/-- The steps of the runs from some pairs, one run after another. -/
def stepsFrom (depth : Nat) (starts : List (Tree × Tree)) : List Step :=
  starts.flatMap fun start => (s.compare depth start.1 start.2).steps

/-- The step that ends the run from a pair, if there is agreement. -/
def closing (c r : Tree) (v : Verdict) : List Step :=
  if v.isAgreement then [.settle c r] else []

theorem mem_closing_iff {c r : Tree} {v : Verdict} {step : Step} :
    step ∈ closing c r v ↔ step = .settle c r ∧ v = .agree := by
  cases v with
  | agree => simp [closing, Verdict.isAgreement]
  | diverge d => simp [closing, Verdict.isAgreement]

theorem exists_steps_meet (depth : Nat) (c r : Tree) (budget : Nat) (as bs : List Tree) :
    ∃ starts, (s.meet depth c r budget as bs).steps =
        s.stepsFrom (depth + 1) starts ++ closing c r (s.meet depth c r budget as bs).verdict ∧
      Coupled as bs starts := by
  induction budget generalizing as bs with
  | zero => exact ⟨[], rfl, .nil as bs⟩
  | succ budget ih =>
      cases as with
      | nil => cases bs <;> exact ⟨[], rfl, .nil _ _⟩
      | cons a as =>
          cases bs with
          | nil => exact ⟨[], rfl, .nil _ _⟩
          | cons b bs =>
              rw [meet, Run.steps_andThen, Run.verdict_andThen]
              dsimp only
              cases hfirst : (s.compare (depth + 1) a b).verdict with
              | diverge d =>
                  refine ⟨[(a, b)], ?_, (Coupled.nil as bs).cons a b⟩
                  rw [stepsFrom, List.flatMap_singleton]
                  rfl
              | agree =>
                  obtain ⟨starts, hsteps, hstarts⟩ := ih as bs
                  refine ⟨(a, b) :: starts, ?_, hstarts.cons a b⟩
                  rw [stepsFrom, List.flatMap_cons, List.append_assoc, ← stepsFrom]
                  exact congrArg _ hsteps

/-- The steps from a pair, in the order in which they are taken. -/
theorem exists_steps_compare (depth : Nat) (c r : Tree) :
    ∃ checks starts,
      (s.compare depth c r).steps = .enter depth c r ::
        (checks ++ s.stepsFrom (depth + 1) starts ++
          closing c r (s.compare depth c r).verdict) ∧
      (∀ step ∈ checks, step = .waive c r ∨ ∃ m n, step = .count c r m n) ∧
      Coupled (exposed s.concordance.candidate c) (exposed s.concordance.reference r) starts := by
  rw [compare_eq]
  split
  · exact ⟨[], [], rfl, by simp, .nil _ _⟩
  split
  · exact ⟨[.waive c r], [], rfl, by simp, .nil _ _⟩
  split
  · exact ⟨[], [], rfl, by simp, .nil _ _⟩
  dsimp only
  split
  · obtain ⟨starts, hsteps, hstarts⟩ := s.exists_steps_meet depth c r
      (arity s.concordance.candidate c) (exposed s.concordance.candidate c)
      (exposed s.concordance.reference r)
    refine ⟨[.count c r (arity s.concordance.candidate c) (arity s.concordance.reference r)], starts,
      ?_, by simp, hstarts⟩
    rw [Run.after, hsteps]
    rfl
  · exact ⟨[.count c r (arity s.concordance.candidate c) (arity s.concordance.reference r)], [], rfl,
      by simp, .nil _ _⟩

end Comparison

end TreeAccord
