import TreeAccord.Proofs.View.SingleChildren

/-! # What hollow nodes hide

A comparison never looks into a hollow node, so nothing in it should branch. The chain of a hollow
node goes down the first visible child wherever one child is counted. This is the child that is
counted unless a wrapper stands before it that is empty and counts as none; then a node is hollow by
its empty wrapper, whatever stands behind it. -/

namespace TreeAccord.View

/-! ## Reached nodes -/

/-- The second node is reached from the first one through visible children. -/
inductive Reaches (p : Side) : Tree → Tree → Prop where
  | here (t : Tree) : Reaches p t t
  | step {t u v : Tree} (child : u ∈ t.children) (seen : visible p u = true)
      (further : Reaches p u v) : Reaches p t v

/-- Every wrapper right below a reached node counts as one child or more. -/
def NoEmptyWrapper (p : Side) (t : Tree) : Prop :=
  ∀ u, Reaches p t u → ∀ v ∈ u.children, transparent p (some u.rule) v = true → 0 < arity p v

theorem Reaches.mem_preorder {p : Side} {t u : Tree} (h : Reaches p t u) : u ∈ t.preorder := by
  induction h with
  | here t => exact t.mem_preorder_self
  | step child seen further ih => exact Tree.mem_preorder_iff.mpr (.inr ⟨_, child, ih⟩)

theorem noEmptyWrapper_of_preorder {p : Side} {t : Tree}
    (h : ∀ u ∈ t.preorder, ∀ v ∈ u.children, transparent p (some u.rule) v = true → 0 < arity p v) :
    NoEmptyWrapper p t :=
  fun u hu => h u hu.mem_preorder

theorem NoEmptyWrapper.of_child {p : Side} {t u : Tree} (h : NoEmptyWrapper p t)
    (child : u ∈ t.children) (seen : visible p u = true) : NoEmptyWrapper p u :=
  fun v hv => h v (.step child seen hv)

/-! ## The child that is counted -/

theorem arity_le_one_of_hollow {p : Side} (noLists : ∀ rule, p.isListRule rule = false) {t : Tree}
    (h : hollow p t = true) : arity p t ≤ 1 := by
  rw [hollow_eq, noLists] at h
  rcases hcount : arity p t with _ | _ | n
  · exact Nat.zero_le 1
  · exact Nat.le_refl 1
  · simp [hcount] at h

/-- A single visible child is the first one. -/
theorem firstVisible?_eq_of_countP_le_one {p : Side} {t u : Tree} (child : u ∈ t.children)
    (seen : visible p u = true) (hcount : t.children.countP (visible p) ≤ 1) :
    firstVisible? p t = some u := by
  have hmem : u ∈ t.children.filter (visible p) := List.mem_filter.mpr ⟨child, seen⟩
  rw [List.countP_eq_length_filter] at hcount
  rw [firstVisible?, ← List.head?_filter]
  cases hfilter : t.children.filter (visible p) with
  | nil => simp [hfilter] at hmem
  | cons v vs =>
      have hnil : vs = [] := by
        apply List.eq_nil_of_length_eq_zero
        rw [hfilter, List.length_cons] at hcount
        omega
      subst hnil
      rw [hfilter, List.mem_singleton] at hmem
      rw [hmem]
      rfl

section

variable {p : Side} (textless : p.inspectsText = false)
include textless

/-- Children of which no wrapper is empty count at least as often as they are visible. -/
theorem countP_visible_le_tally {parent : String} {ts : List Tree}
    (counted : ∀ t ∈ ts, transparent p (some parent) t = true → 0 < arity p t) :
    (ts.countP (visible p) : Int) ≤ tally p parent ts := by
  induction ts with
  | nil => simp
  | cons t ts ih =>
      have hrest := ih fun u hu => counted u (List.mem_cons_of_mem t hu)
      have hfirst := counted t List.mem_cons_self
      rw [tally_cons_eq_share_add textless, share, List.countP_cons]
      by_cases hw : transparent p (some parent) t = true
      · have hpos := hfirst hw
        cases visible p t <;> simp [hw] <;> omega
      · cases visible p t <;> simp [hw] <;> omega

theorem countP_visible_le_arity {t : Tree}
    (counted : ∀ u ∈ t.children, transparent p (some t.rule) u = true → 0 < arity p u) :
    t.children.countP (visible p) ≤ arity p t := by
  have htally := countP_visible_le_tally textless counted
  rw [arity_eq]
  omega

/-- Below a hollow node without empty wrappers, every visible child is hollow. -/
theorem hollow_of_visible_child (noLists : ∀ rule, p.isListRule rule = false) {t u : Tree}
    (counted : ∀ u ∈ t.children, transparent p (some t.rule) u = true → 0 < arity p u)
    (h : hollow p t = true) (child : u ∈ t.children) (seen : visible p u = true) :
    hollow p u = true := by
  have hle : arity p t ≤ 1 := arity_le_one_of_hollow noLists h
  have hcount : t.children.countP (visible p) ≤ arity p t := countP_visible_le_arity textless counted
  have hpos : 0 < t.children.countP (visible p) := List.countP_pos_iff.mpr ⟨u, child, seen⟩
  have hone : arity p t = 1 := by omega
  have hfirst : firstVisible? p t = some u :=
    firstVisible?_eq_of_countP_le_one child seen (Nat.le_trans hcount hle)
  rw [hollow_eq, noLists, hone, hfirst] at h
  exact h

end

/-! ## Nothing branches -/

theorem ChainTo.reaches {p : Side} {t last : Tree} {path : List Tree}
    (h : ChainTo p t path last) : Reaches p t last := by
  induction path generalizing t with
  | nil =>
      obtain rfl := h.of_nil
      exact .here last
  | cons u path ih =>
      obtain ⟨first, further⟩ := h.of_cons
      exact .step first.mem_children (List.find?_some first.2) (ih further)

/-- Where no reached node counts more than one child, the chain ends in nothing. -/
theorem hollow_of_forall_reached {p : Side} {t : Tree}
    (h : ∀ u, Reaches p t u → arity p u ≤ 1) : hollow p t = true := by
  obtain ⟨path, last, hchain⟩ := ChainTo.exists_chainTo p t
  apply hchain.hollow_iff.mpr
  right
  exact h last hchain.reaches

/-- On a side that looks at no text and names no rule that is always a list, a node without empty
wrappers is hollow exactly if no node that is reached from it through visible children counts two
children or more. -/
theorem hollow_iff_forall_reached {p : Side} (textless : p.inspectsText = false)
    (noLists : p.settings.alwaysListRules = []) {t : Tree} (counted : NoEmptyWrapper p t) :
    hollow p t = true ↔ ∀ u, Reaches p t u → arity p u ≤ 1 := by
  have noLists : ∀ rule, p.isListRule rule = false := by
    intro rule
    simp [Side.isListRule, noLists]
  constructor
  · intro h u hreaches
    induction hreaches with
    | here t => exact arity_le_one_of_hollow noLists h
    | @step t u v child seen further ih =>
        apply ih (counted.of_child child seen)
        exact hollow_of_visible_child textless noLists (counted t (.here t)) h child seen
  · exact hollow_of_forall_reached

/-! ### Empty modifiers -/

/-- Bodies and modifiers are wrappers. -/
def modifierSettings : Settings where
  candidate := {
    irrelevantRules := ["Comment"]
    emptyBlockRules := ["Block"]
    wrappers := [⟨"Body", some "Class"⟩, ⟨"Modifiers", none⟩] }

def modifierSide : Side := .ofSettings modifierSettings.candidate

/-- A function whose body is a single name. -/
def thinTree : Tree :=
  .node ⟨0, "Fun", none, "/**/x", false⟩
    [.node ⟨1, "Comment", some "COMMENT", "/**/", true⟩ [], .node ⟨2, "Block", none, "", false⟩ [],
      .node ⟨3, "Body", none, "x", false⟩
        [.node ⟨4, "Name", none, "x", false⟩ [.node ⟨5, "Leaf", some "ID", "x", true⟩ []]]]

theorem hollow_thinTree :
    modifierSide.inspectsText = false ∧ modifierSide.settings.alwaysListRules = [] ∧
      NoEmptyWrapper modifierSide thinTree ∧
      (hollow modifierSide thinTree = true ↔
        ∀ u, Reaches modifierSide thinTree u → arity modifierSide u ≤ 1) := by
  have textless : modifierSide.inspectsText = false := by decide
  have counted : NoEmptyWrapper modifierSide thinTree := noEmptyWrapper_of_preorder (by decide)
  exact ⟨textless, rfl, counted, hollow_iff_forall_reached textless rfl counted⟩

/-- Two names side by side. -/
def branchTree : Tree :=
  .node ⟨3, "Pair", none, "xy", false⟩
    [.node ⟨4, "Leaf", some "ID", "x", true⟩ [], .node ⟨5, "Leaf", some "ID", "y", true⟩ []]

/-- A function that begins with modifiers, of which there are none. -/
def modifiedTree : Tree :=
  .node ⟨1, "Fun", none, "xy", false⟩ [.node ⟨2, "Modifiers", none, "", false⟩ [], branchTree]

/-- The empty modifiers count as none and are visible first, so the function is hollow by them. Its
other child branches, and is never compared with anything. -/
theorem hollow_modifiedTree :
    modifierSide.inspectsText = false ∧ modifierSide.settings.alwaysListRules = [] ∧
      hollow modifierSide modifiedTree = true ∧ Reaches modifierSide modifiedTree branchTree ∧
      arity modifierSide branchTree = 2 := by
  have child : branchTree ∈ modifiedTree.children := by simp [modifiedTree]
  exact ⟨by decide, rfl, by decide, .step child (by decide) (.here branchTree), by decide⟩

end TreeAccord.View
