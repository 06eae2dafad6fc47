import TreeAccord.View.Exposure
import Mathlib.Data.List.Forall2

/-! # A side without settings

A side that is told nothing takes every child for a node in its own right. What it makes of a tree
is a matter of shape alone: where the children of two trees correspond, so do the exposed nodes. -/

namespace TreeAccord

/-- The side with no settings. -/
def Side.bare : Side := .ofSettings {}

namespace View

/-! ## What a bare side sees -/

theorem visible_bare (t : Tree) : visible .bare t = true := by
  have hnoise : isNoise .bare t.label = false := by
    rw [isNoise]
    cases t.label.kind? <;> rfl
  rw [visible, hnoise]
  rfl

theorem transparent_bare (parent? : Option String) (t : Tree) :
    transparent .bare parent? t = false := rfl

theorem firstVisible?_bare (t : Tree) : firstVisible? .bare t = t.children.head? := by
  rw [firstVisible?, funext visible_bare]
  cases t.children <;> rfl

/-- Every child counts once. -/
theorem arity_bare (t : Tree) : arity .bare t = t.children.length := by
  have htally : ∀ (parent : String) (ts : List Tree), tally .bare parent ts = ts.length := by
    intro parent ts
    induction ts with
    | nil => rw [tally_nil]; rfl
    | cons t ts ih =>
        have htext : textCorrection .bare t ts.head? = 0 := rfl
        rw [tally_cons, ih, visible_bare, transparent_bare, htext, List.length_cons]
        simp
        omega
  rw [arity_eq, htally, Int.toNat_natCast]

theorem solid_bare (t : Tree) : solid .bare t = !hollow .bare t := by
  rw [solid, visible_bare, Bool.true_and]

theorem exposed_bare (t : Tree) :
    exposed .bare t = (t.children.filter fun u => !hollow .bare u).map (core .bare) := by
  have hstand : standIns .bare t.rule = fun u => [core .bare u] := by
    funext u
    rw [standIns, transparent_bare]
    rfl
  rw [exposed, hstand, ← List.map_eq_flatMap, funext solid_bare]

/-! ## Trees of one shape -/

section

variable {R : Tree → Tree → Prop} (hR : ∀ {t u}, R t u → List.Forall₂ R t.children u.children)
include hR

theorem arity_bare_eq {t u : Tree} (h : R t u) : arity .bare t = arity .bare u := by
  rw [arity_bare, arity_bare, (hR h).length_eq]

theorem firstVisible?_bare_related {t u : Tree} (h : R t u) :
    (firstVisible? .bare t = none ∧ firstVisible? .bare u = none) ∨
      ∃ v w, v ∈ t.children ∧ R v w ∧ firstVisible? .bare t = some v ∧
        firstVisible? .bare u = some w := by
  rw [firstVisible?_bare, firstVisible?_bare]
  have hchildren := hR h
  generalize t.children = ts, u.children = us at hchildren
  cases hchildren with
  | nil => exact .inl ⟨rfl, rfl⟩
  | cons hvw _ => exact .inr ⟨_, _, List.mem_cons_self, hvw, rfl, rfl⟩

theorem hollow_bare_eq {t u : Tree} (h : R t u) : hollow .bare t = hollow .bare u := by
  have hlist : ∀ rule, Side.bare.isListRule rule = false := fun _ => rfl
  rw [hollow_eq, hollow_eq, hlist, hlist, arity_bare_eq hR h]
  rcases firstVisible?_bare_related hR h with ⟨ht, hu⟩ | ⟨v, w, hv, hvw, ht, hu⟩
  · rw [ht, hu]
  · rw [ht, hu, Option.all_some, Option.all_some, hollow_bare_eq hvw]
termination_by t.size
decreasing_by exact Tree.size_lt_of_mem_children hv

theorem core_bare_related {t u : Tree} (h : R t u) : R (core .bare t) (core .bare u) := by
  rw [core_eq, core_eq, arity_bare_eq hR h]
  split
  · rcases firstVisible?_bare_related hR h with ⟨ht, hu⟩ | ⟨v, w, hv, hvw, ht, hu⟩
    · rwa [ht, hu]
    · rw [ht, hu]
      exact core_bare_related hvw
  · exact h
termination_by t.size
decreasing_by exact Tree.size_lt_of_mem_children hv

theorem exposed_bare_related {t u : Tree} (h : R t u) :
    List.Forall₂ R (exposed .bare t) (exposed .bare u) := by
  rw [exposed_bare, exposed_bare]
  have hsolid : List.Forall₂ R (t.children.filter fun v => !hollow .bare v)
      (u.children.filter fun v => !hollow .bare v) := by
    apply List.rel_filter _ (hR h)
    intro v w hvw
    dsimp only
    rw [hollow_bare_eq hR hvw]
  exact List.rel_map (fun v w hvw => core_bare_related hR hvw) hsolid

end

end View

end TreeAccord
