import TreeAccord.Proofs.Compare.Noise
import TreeAccord.Proofs.View.Chaining

/-! # Links make no difference

A comparison cannot tell a tree from the same tree with single-child nodes put in above the nodes
below its root, as long as the side that reads the tree looks at no text and knows no wrappers. -/

namespace TreeAccord

open View

theorem simulation_chained {p : Side} (plain : p.Plain) : Simulation p (Chained p) where
  rule_eq h := h.alike.rule
  terminal_eq h := h.alike.terminal
  arity_eq h := h.arity_eq plain
  exposed_related h := h.exposed plain

/-- A link may be put above any visible node below the root, and further links above it. Every
comparison that reads the tree by this side comes to the same verdict, with the same divergence at the
same path, whichever of the two trees it is and whatever the other one is. -/
theorem verdict_chained {p : Side} (textless : p.inspectsText = false)
    (noWrappers : p.hasWrappers = false) (t : Tree) :
    (∀ w path n, Link p w → path ≠ [] → t.at? path = some n → visible p n = true →
      Chained p t (t.enclose w path)) ∧
    ∀ t', Chained p t t' → ∀ (s : Comparison) (other : Tree),
      (s.concordance.candidate = p → s.verdict t other = s.verdict t' other) ∧
      (s.concordance.reference = p → s.verdict other t = s.verdict other t') := by
  have plain : p.Plain := ⟨textless, noWrappers⟩
  refine ⟨fun w path n slim below ht hvisible => .enclose slim below ht hvisible, ?_⟩
  intro t' h s other
  constructor
  · rintro rfl
    exact (simulation_chained plain).verdict_candidate_eq h other
  · rintro rfl
    exact (simulation_chained plain).verdict_reference_eq h other

/-! ### A node above the function -/

/-- The label of a node between the file and its function. -/
def declarationLabel : Label := ⟨1, "DECLARATION", none, "funf", false⟩

/-- By the built-in settings, the function is found below the node as it was found without it. -/
theorem verdict_enclosedFunctionTree :
    KotlinPsi.concordance.reference.inspectsText = false ∧
      KotlinPsi.concordance.reference.hasWrappers = false ∧
      Link KotlinPsi.concordance.reference declarationLabel ∧
      (functionTree.at? [0]).any (visible KotlinPsi.concordance.reference) = true ∧
      Comparison.verdict ⟨KotlinPsi.concordance, some 3⟩ declarationTree functionTree =
        Comparison.verdict ⟨KotlinPsi.concordance, some 3⟩ declarationTree
          (functionTree.enclose declarationLabel [0]) := by
  have htextless : KotlinPsi.concordance.reference.inspectsText = false := by decide
  have hwrappers : KotlinPsi.concordance.reference.hasWrappers = false := by decide
  have hlink : Link KotlinPsi.concordance.reference declarationLabel :=
    ⟨rfl, rfl, by decide, by decide, by decide⟩
  obtain ⟨henclose, hverdict⟩ := verdict_chained htextless hwrappers functionTree
  have hchained := henclose declarationLabel [0] _ hlink (List.cons_ne_nil 0 []) rfl (by decide)
  exact ⟨htextless, hwrappers, hlink, by decide,
    (hverdict _ hchained ⟨KotlinPsi.concordance, some 3⟩ declarationTree).2 rfl⟩

end TreeAccord
