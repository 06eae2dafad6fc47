import TreeAccord.Proofs.View.Textless
import Mathlib.Data.List.Forall2

/-! # Noise among the children

To a side that looks at no text, a tree with noise put in anywhere below its nodes looks as the tree
did before: positions, rows and texts change, but neither what is visible nor how it is counted and
exposed. -/

namespace TreeAccord.View

mutual
/-- The second tree is the first one with whole subtrees inserted below its nodes, at any positions.
The root of each is noise to the side and no transparent wrapper where it stands. Rows and texts may
change. -/
inductive Padded (p : Side) : Tree → Tree → Prop where
  | node {l l' : Label} {cs cs' : List Tree} (label : l.Alike l')
      (children : PaddedForest p l.rule cs cs') : Padded p (.node l cs) (.node l' cs')

/-- The same of the children of a node of rule `parent`. -/
inductive PaddedForest (p : Side) : String → List Tree → List Tree → Prop where
  | nil (parent : String) : PaddedForest p parent [] []
  | keep {parent : String} {t t' : Tree} {ts ts' : List Tree} (first : Padded p t t')
      (others : PaddedForest p parent ts ts') : PaddedForest p parent (t :: ts) (t' :: ts')
  | insert {parent : String} {noise : Tree} {ts ts' : List Tree}
      (hidden : visible p noise = false) (kept : transparent p (some parent) noise = false)
      (others : PaddedForest p parent ts ts') : PaddedForest p parent ts (noise :: ts')
end

namespace Padded

variable {p : Side} {t t' : Tree}

theorem alike (h : Padded p t t') : t.label.Alike t'.label := by
  cases h with
  | node label children => exact label

theorem forest (h : Padded p t t') : PaddedForest p t.rule t.children t'.children := by
  cases h with
  | node label children => exact children

theorem transparent_eq (h : Padded p t t') (parent? : Option String) :
    transparent p parent? t = transparent p parent? t' := by
  have hrule : t.rule = t'.rule := h.alike.rule
  rw [transparent, transparent, hrule]

end Padded

/-! ## What is visible, counted and hollow -/

mutual
theorem Padded.visible_eq {p : Side} (textless : p.inspectsText = false) :
    ∀ {t t' : Tree}, Padded p t t' → visible p t = visible p t'
  | .node _ _, .node _ _, .node label children => by
    simp only [visible, Tree.label_node, Tree.children_node, Tree.rule]
    rw [isNoise_of_alike textless label, label.rule, children.holdsTerminal_eq textless]

theorem PaddedForest.holdsTerminal_eq {p : Side} (textless : p.inspectsText = false) :
    ∀ {parent : String} {ts ts' : List Tree}, PaddedForest p parent ts ts' →
      holdsTerminal p ts = holdsTerminal p ts'
  | _, _, _, .nil _ => rfl
  | _, .node _ _ :: _, .node _ _ :: _, .keep (.node label children) others => by
    rw [holdsTerminal, holdsTerminal, isNoise_of_alike textless label, label.rule, label.terminal,
      children.holdsTerminal_eq textless, others.holdsTerminal_eq textless]
  | _, _, _, .insert hidden _ others => by
    rw [holdsTerminal_cons, hidden, others.holdsTerminal_eq textless]
    rfl
end

mutual
theorem Padded.arity_eq {p : Side} (textless : p.inspectsText = false) :
    ∀ {t t' : Tree}, Padded p t t' → arity p t = arity p t'
  | .node _ _, .node _ _, .node label children => by
    rw [arity, arity, children.tally_eq textless, label.rule]

theorem PaddedForest.tally_eq {p : Side} (textless : p.inspectsText = false) :
    ∀ {parent : String} {ts ts' : List Tree}, PaddedForest p parent ts ts' →
      tally p parent ts = tally p parent ts'
  | _, _, _, .nil _ => rfl
  | _, _, _, .keep first others => by
    rw [tally_cons_eq_share_add textless, tally_cons_eq_share_add textless, share, share,
      first.visible_eq textless, first.transparent_eq, first.arity_eq textless,
      others.tally_eq textless]
  | _, _, _, .insert hidden kept others => by
    rw [tally_cons_eq_share_add textless, share, hidden, kept, others.tally_eq textless]
    simp
end

mutual
theorem Padded.hollow_eq {p : Side} (textless : p.inspectsText = false) :
    ∀ {t t' : Tree}, Padded p t t' → hollow p t = hollow p t'
  | .node _ _, .node _ _, .node label children => by
    rw [hollow, hollow, (Padded.node label children).arity_eq textless, label.rule,
      children.firstHollow_eq textless]

theorem PaddedForest.firstHollow_eq {p : Side} (textless : p.inspectsText = false) :
    ∀ {parent : String} {ts ts' : List Tree}, PaddedForest p parent ts ts' →
      firstHollow p ts = firstHollow p ts'
  | _, _, _, .nil _ => rfl
  | _, _, _, .keep first others => by
    rw [firstHollow, firstHollow, first.visible_eq textless, first.hollow_eq textless,
      others.firstHollow_eq textless]
  | _, _, _, .insert hidden _ others => by
    rw [others.firstHollow_eq textless]
    simp [firstHollow, hidden]
end

/-! ## What is exposed -/

mutual
theorem Padded.core {p : Side} (textless : p.inspectsText = false) :
    ∀ {t t' : Tree}, Padded p t t' → Padded p (core p t) (core p t')
  | .node _ _, .node _ _, .node label children => by
    have h := Padded.node label children
    rw [View.core, View.core, h.arity_eq textless]
    split
    · exact children.firstCore textless h
    · exact h

theorem PaddedForest.firstCore {p : Side} (textless : p.inspectsText = false) :
    ∀ {parent : String} {self self' : Tree} {ts ts' : List Tree}, PaddedForest p parent ts ts' →
      Padded p self self' → Padded p (firstCore p self ts) (firstCore p self' ts')
  | _, _, _, _, _, .nil _, hself => hself
  | _, _, _, _, _, .keep first others, hself => by
    rw [View.firstCore, View.firstCore, first.visible_eq textless]
    split
    · exact first.core textless
    · exact others.firstCore textless hself
  | _, _, _, _, _, .insert hidden _ others, hself => by
    have hskip := others.firstCore textless hself
    rw [View.firstCore, hidden]
    exact hskip
end

section

variable {p : Side} (textless : p.inspectsText = false)
include textless

theorem Padded.solid_eq {t t' : Tree} (h : Padded p t t') : solid p t = solid p t' := by
  rw [solid, solid, h.visible_eq textless, h.hollow_eq textless]

/-- The noise is not solid, so the solid children correspond one by one. -/
theorem PaddedForest.filter_solid {parent : String} {ts ts' : List Tree}
    (h : PaddedForest p parent ts ts') :
    List.Forall₂ (Padded p) (ts.filter (solid p)) (ts'.filter (solid p)) := by
  induction ts' generalizing ts with
  | nil =>
      cases h with
      | nil parent => exact .nil
  | cons t' ts' ih =>
      cases h with
      | keep first others =>
          rw [List.filter_cons, List.filter_cons, first.solid_eq textless]
          split
          · exact .cons first (ih others)
          · exact ih others
      | insert hidden kept others =>
          rw [List.filter_cons_of_neg (by simp [solid, hidden])]
          exact ih others

theorem Padded.standIns {t t' : Tree} (h : Padded p t t') (parent : String) :
    List.Forall₂ (Padded p) (standIns p parent t) (standIns p parent t') := by
  rw [View.standIns, View.standIns, h.transparent_eq]
  split
  · rw [List.forall₂_map_left_iff, List.forall₂_map_right_iff]
    exact (h.forest.filter_solid textless).imp fun _ _ h => h.core textless
  · exact .cons (h.core textless) .nil

theorem Padded.exposed {t t' : Tree} (h : Padded p t t') :
    List.Forall₂ (Padded p) (exposed p t) (exposed p t') := by
  have hrule : t.rule = t'.rule := h.alike.rule
  rw [View.exposed, View.exposed, hrule]
  exact List.rel_flatMap (h.forest.filter_solid textless) fun _ _ h => h.standIns textless _

end

end TreeAccord.View
