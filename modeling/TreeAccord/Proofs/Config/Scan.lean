import TreeAccord.Config.Concordance

/-! # Tables of rules as lists of pairs

A table keeps plain pairs apart from patterns and gathers them by the candidate's name. To ask it is
the same as to go through the pairs it was made of, and so it treats both sides alike. -/

namespace TreeAccord

/-- Whether a written pair stands for these two rules. -/
def RulePair.covers (pair : RulePair) (candidate reference : String) : Bool :=
  (NamePattern.ofText pair.candidate).admits candidate &&
    (NamePattern.ofText pair.reference).admits reference

theorem RulePair.covers_flip (pair : RulePair) (candidate reference : String) :
    pair.flip.covers reference candidate = pair.covers candidate reference :=
  Bool.and_comm _ _

namespace Correspondence

/-- A name is added only where it is missing. -/
theorem contains_add (names : List String) (name other : String) :
    (if name ∈ names then names else names ++ [name]).contains other =
      (names.contains other || name == other) := by
  rw [Bool.eq_iff_iff]
  split
  · rename_i hmem
    simp only [List.contains_iff_mem, Bool.or_eq_true, beq_iff_eq]
    constructor
    · exact .inl
    · rintro (h | rfl)
      · exact h
      · exact hmem
  · simp [eq_comm (a := other)]

/-- Gathering one more name under a key adds that pair and no other. -/
theorem any_contains_find?_alter (g : Groups String) (key name candidate reference : String) :
    ((g.alter key fun names => if name ∈ names then names else names ++ [name]).find?
        candidate).any (fun names => names.contains reference) =
      ((g.find? candidate).any (fun names => names.contains reference) ||
        (key == candidate && name == reference)) := by
  by_cases hk : key = candidate
  · subst hk
    rw [Groups.find?_alter_self, Option.any_some, contains_add]
    cases g.find? key <;> simp
  · rw [Groups.find?_alter_of_ne g hk]
    simp [hk]

theorem relates_insert (t : Correspondence) (pair : RulePair) (candidate reference : String) :
    (t.insert pair).relates candidate reference =
      (t.relates candidate reference || pair.covers candidate reference) := by
  unfold insert RulePair.covers relates
  cases hc : NamePattern.ofText pair.candidate with
  | leading start => simp [Bool.or_assoc]
  | exactly c =>
      cases hr : NamePattern.ofText pair.reference with
      | leading start => simp [Bool.or_assoc]
      | exactly r =>
          simp only [any_contains_find?_alter, NamePattern.admits]
          rw [Bool.or_right_comm]

/-- A table relates two rules exactly when one of its pairs stands for them. -/
theorem relates_ofPairs (pairs : List RulePair) (candidate reference : String) :
    (ofPairs pairs).relates candidate reference =
      pairs.any fun pair => pair.covers candidate reference := by
  have hfold : ∀ t : Correspondence, (pairs.foldl insert t).relates candidate reference =
      (t.relates candidate reference ||
        pairs.any fun pair => pair.covers candidate reference) := by
    induction pairs with
    | nil => simp
    | cons pair pairs ih =>
        intro t
        rw [List.foldl_cons, ih, relates_insert, List.any_cons, Bool.or_assoc]
  exact hfold {}

/-- A table of more pairs, in whatever order, relates all rules that a table of fewer pairs relates. -/
theorem relates_of_subset {pairs pairs' : List RulePair} (h : pairs ⊆ pairs')
    {candidate reference : String} (hrelates : (ofPairs pairs).relates candidate reference = true) :
    (ofPairs pairs').relates candidate reference = true := by
  rw [relates_ofPairs, List.any_eq_true] at hrelates ⊢
  obtain ⟨pair, hpair, hcovers⟩ := hrelates
  exact ⟨pair, h hpair, hcovers⟩

theorem relates_ofPairs_flip (pairs : List RulePair) (candidate reference : String) :
    (ofPairs (pairs.map RulePair.flip)).relates reference candidate =
      (ofPairs pairs).relates candidate reference := by
  simp only [relates_ofPairs, List.any_map, Function.comp_def, RulePair.covers_flip]

end Correspondence

end TreeAccord
