import TreeAccord.Proofs.Tree.Order
import TreeAccord.Proofs.View.Enumeration
import TreeAccord.Proofs.View.SingleChildren

/-! # Exposed nodes branch

A node is hollow when its chain of single children ends in nothing, and hollow nodes are never
exposed. So the chain of an exposed node ends where two nodes or more are counted, whatever
corrections the count is made of, and there is something below it. -/

namespace TreeAccord.View

/-- The chain of a node that is not hollow ends where two nodes or more are counted. -/
theorem two_le_arity_core {p : Side} {t : Tree} (h : hollow p t = false) :
    2 ≤ arity p (core p t) := by
  obtain ⟨path, last, hchain⟩ := ChainTo.exists_chainTo p t
  have hlast : core p t = last := hchain.core_eq t List.mem_cons_self
  have hmany : ¬arity p last ≤ 1 := by
    intro hfew
    have hhollow : hollow p t = true := hchain.hollow_iff.mpr (.inr hfew)
    rw [h] at hhollow
    cases hhollow
  rw [hlast]
  omega

/-- The end of a chain has a chain that ends at once. -/
theorem core_core (p : Side) (t : Tree) : core p (core p t) = core p t := by
  obtain ⟨path, last, hchain⟩ := ChainTo.exists_chainTo p t
  have hcores := hchain.core_eq
  rw [hcores t List.mem_cons_self]
  exact hcores last (List.mem_of_getLast? hchain.ends)

/-- A node that is not hollow has no hollow node on its chain, and so not at the end of it. -/
theorem hollow_core_eq_false {p : Side} {t : Tree} (h : hollow p t = false) :
    hollow p (core p t) = false := by
  obtain ⟨path, last, hchain⟩ := ChainTo.exists_chainTo p t
  have hmany := two_le_arity_core h
  have hlast : core p t = last := hchain.core_eq t List.mem_cons_self
  rw [hlast] at hmany ⊢
  rw [Bool.eq_false_iff, ne_eq, hollow_iff_of_stops hchain.stops]
  rintro (hlist | hfew)
  · have hhollow : hollow p t = true :=
      hchain.hollow_iff.mpr (.inl ⟨last, List.mem_of_getLast? hchain.ends, hlist⟩)
    rw [h] at hhollow
    cases hhollow
  · omega

/-! ## Exposed nodes -/

/-- The node adds structure of its own, is the end of its chain, and counts at least two nodes below
it. -/
structure Branches (p : Side) (t : Tree) : Prop where
  not_hollow : hollow p t = false
  core_eq : core p t = t
  two_le_arity : 2 ≤ arity p t
  children_ne_nil : t.children ≠ []

theorem branches_core {p : Side} {t : Tree} (h : hollow p t = false) : Branches p (core p t) := by
  have hmany : 2 ≤ arity p (core p t) := two_le_arity_core h
  refine ⟨hollow_core_eq_false h, core_core p t, hmany, ?_⟩
  intro hnil
  rw [arity_eq_zero_of_children_eq_nil hnil] at hmany
  omega

/-- Every exposed node is the end of the chain of a node below. -/
theorem exists_core_of_mem_exposed {p : Side} {t u : Tree} (h : u ∈ exposed p t) :
    ∃ k, k.Below t ∧ solid p k = true ∧ u = core p k := by
  obtain ⟨k, hk, hu⟩ := List.mem_flatMap.mp h
  obtain ⟨hk, hsolid⟩ := List.mem_filter.mp hk
  unfold standIns at hu
  split at hu
  · obtain ⟨j, hj, rfl⟩ := List.mem_map.mp hu
    obtain ⟨hj, hsolid⟩ := List.mem_filter.mp hj
    exact ⟨j, .step hj (.child hk), hsolid, rfl⟩
  · exact ⟨k, .child hk, hsolid, List.mem_singleton.mp hu⟩

theorem branches_of_mem_exposed {p : Side} {t u : Tree} (h : u ∈ exposed p t) : Branches p u := by
  obtain ⟨k, -, hsolid, rfl⟩ := exists_core_of_mem_exposed h
  simp only [solid, Bool.and_eq_true, Bool.not_eq_true'] at hsolid
  exact branches_core hsolid.2

theorem below_of_mem_exposed {p : Side} {t u : Tree} (h : u ∈ exposed p t) : u.Below t :=
  Tree.below_iff.mpr (exists_child_of_mem_exposed h)

theorem height_pos_of_mem_exposed {p : Side} {t u : Tree} (h : u ∈ exposed p t) :
    0 < u.height := by
  obtain ⟨v, hv⟩ := List.exists_mem_of_ne_nil _ (branches_of_mem_exposed h).children_ne_nil
  exact Nat.lt_of_le_of_lt (Nat.zero_le _) (Tree.height_lt_of_mem_children hv)

end TreeAccord.View
