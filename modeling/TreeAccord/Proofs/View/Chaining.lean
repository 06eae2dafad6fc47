import TreeAccord.Proofs.View.Unwrapping

/-! # Links above single nodes

A node may be given a parent of its own, with no other child, in the place where it stood. To a side
that looks at no text and knows no wrappers this makes no difference: such a link is passed over like
the chains that were there before. -/

namespace TreeAccord

namespace View

/-- The label of a node without a token that the side sees as any other, whatever stands below it. -/
structure Link (p : Side) (l : Label) : Prop where
  kind? : l.kind? = none
  terminal : l.terminal = false
  noNoise : p.isNoiseRule l.rule = false
  noBlock : p.isBlockRule l.rule = false
  noList : p.isListRule l.rule = false

mutual
/-- The second tree is the first one with links put above visible nodes below its root, any number of
them above each. Rows and texts may change. -/
inductive Chained (p : Side) : Tree → Tree → Prop where
  | node {l l' : Label} {cs cs' : List Tree} (label : l.Alike l')
      (children : ChainedForest p cs cs') : Chained p (.node l cs) (.node l' cs')

/-- The same of trees side by side, where links may be put above the trees themselves. -/
inductive ChainedForest (p : Side) : List Tree → List Tree → Prop where
  | nil : ChainedForest p [] []
  | keep {t t' : Tree} {ts ts' : List Tree} (first : Chained p t t')
      (others : ChainedForest p ts ts') : ChainedForest p (t :: ts) (t' :: ts')
  | link {w : Label} {t : Tree} {us ts ts' : List Tree} (slim : Link p w)
      (visible : visible p t = true) (inner : ChainedForest p [t] us)
      (others : ChainedForest p ts ts') : ChainedForest p (t :: ts) (.node w us :: ts')
end

mutual
theorem Chained.refl (p : Side) : ∀ t : Tree, Chained p t t
  | .node _ cs => .node ⟨rfl, rfl, rfl⟩ (ChainedForest.refl p cs)

theorem ChainedForest.refl (p : Side) : ∀ ts : List Tree, ChainedForest p ts ts
  | [] => .nil
  | t :: ts => .keep (Chained.refl p t) (ChainedForest.refl p ts)
end

/-! ## One link -/

end View

/-- The tree with a node of label `w` put above the node at a path of child positions. -/
def Tree.enclose (w : Label) : List Nat → Tree → Tree
  | [], t => .node w [t]
  | i :: rest, .node l cs => .node l (cs.modify i (Tree.enclose w rest))

namespace View

theorem ChainedForest.modify {p : Side} {f : Tree → Tree} {t : Tree}
    (h : ∀ ts, ChainedForest p (t :: ts) (f t :: ts)) {ts : List Tree} {i : Nat}
    (ht : ts[i]? = some t) : ChainedForest p ts (ts.modify i f) := by
  induction ts generalizing i with
  | nil => simp at ht
  | cons u us ih =>
      cases i with
      | zero =>
          obtain rfl : u = t := by simpa using ht
          exact h us
      | succ i => exact .keep (Chained.refl p u) (ih (by simpa using ht))

/-- Any visible node below the root may be given a link. -/
theorem Chained.enclose {p : Side} {w : Label} (slim : Link p w) {path : List Nat} {t n : Tree}
    (below : path ≠ []) (ht : t.at? path = some n) (hvisible : visible p n = true) :
    Chained p t (t.enclose w path) := by
  induction path generalizing t with
  | nil => exact absurd rfl below
  | cons i rest ih =>
      obtain ⟨l, cs⟩ := t
      obtain ⟨c, hc, hn⟩ := Option.bind_eq_some_iff.mp ht
      refine .node ⟨rfl, rfl, rfl⟩ (ChainedForest.modify (fun us => ?_) hc)
      cases rest with
      | nil =>
          obtain rfl : c = n := by simpa [Tree.at?] using hn
          exact .link slim hvisible (ChainedForest.refl p [c]) (ChainedForest.refl p us)
      | cons j rest => exact .keep (ih (List.cons_ne_nil j rest) hn) (ChainedForest.refl p us)

theorem Chained.alike {p : Side} {t t' : Tree} (h : Chained p t t') : t.label.Alike t'.label := by
  cases h with
  | node label children => exact label

/-! ## What is visible -/

theorem Link.isNoise_eq_false {p : Side} (textless : p.inspectsText = false) {w : Label}
    (h : Link p w) : isNoise p w = false := by
  rw [isNoise, h.noNoise, h.kind?, hasNoiseTexts_eq_false textless]
  rfl

/-- A link is visible even where nothing visible stands below it. -/
theorem Link.visible_node {p : Side} (textless : p.inspectsText = false) {w : Label}
    (h : Link p w) (us : List Tree) : visible p (.node w us) = true := by
  have hnoise := h.isNoise_eq_false textless
  have hblock := h.noBlock
  simp [visible, Tree.rule, hnoise, hblock]

mutual
theorem Chained.visible_eq {p : Side} (textless : p.inspectsText = false) :
    ∀ {t t' : Tree}, Chained p t t' → visible p t = visible p t'
  | .node _ _, .node _ _, .node label children => by
    simp only [visible, Tree.label_node, Tree.children_node, Tree.rule]
    rw [isNoise_of_alike textless label, label.rule, children.holdsTerminal_eq textless]

theorem ChainedForest.holdsTerminal_eq {p : Side} (textless : p.inspectsText = false) :
    ∀ {ts ts' : List Tree}, ChainedForest p ts ts' → holdsTerminal p ts = holdsTerminal p ts'
  | _, _, .nil => rfl
  | .node _ _ :: _, .node _ _ :: _, .keep (.node label children) others => by
    rw [holdsTerminal, holdsTerminal, isNoise_of_alike textless label, label.rule, label.terminal,
      children.holdsTerminal_eq textless, others.holdsTerminal_eq textless]
  | t :: _, .node w us :: _, .link slim visible inner others => by
    have hinner := inner.holdsTerminal_eq textless
    rw [holdsTerminal_cons, holdsTerminal, Bool.or_false] at hinner
    rw [holdsTerminal_cons, hinner, holdsTerminal, slim.isNoise_eq_false textless, slim.terminal,
      others.holdsTerminal_eq textless, Bool.and_false, Bool.false_or, Bool.not_false, Bool.true_and]
end

/-! ## What is counted -/

theorem ChainedForest.countP_eq {p : Side} (textless : p.inspectsText = false) {ts ts' : List Tree}
    (h : ChainedForest p ts ts') : ts.countP (visible p) = ts'.countP (visible p) := by
  induction ts generalizing ts' with
  | nil =>
      cases h with
      | nil => rfl
  | cons t ts ih =>
      cases h with
      | keep first others =>
          rw [List.countP_cons, List.countP_cons, ih others, first.visible_eq textless]
      | link slim hvisible inner others =>
          rw [List.countP_cons, List.countP_cons, ih others, hvisible, slim.visible_node textless]

section

variable {p : Side} (plain : p.Plain)
include plain

theorem Chained.arity_eq {t t' : Tree} (h : Chained p t t') : arity p t = arity p t' := by
  rw [arity_eq_countP plain, arity_eq_countP plain]
  cases h with
  | node label children => exact children.countP_eq plain.textless

/-! ## What a link stands for -/

omit plain in
theorem firstHollow_singleton {t : Tree} (hvisible : visible p t = true) :
    firstHollow p [t] = hollow p t := by
  rw [firstHollow, hvisible, if_pos rfl]

omit plain in
theorem firstCore_singleton {t : Tree} (hvisible : visible p t = true) (self : Tree) :
    firstCore p self [t] = core p t := by
  rw [firstCore, hvisible, if_pos rfl]

/-- A link counts the one tree below it. -/
theorem ChainedForest.arity_link {w : Label} {t : Tree} {us : List Tree}
    (hvisible : visible p t = true) (inner : ChainedForest p [t] us) : arity p (.node w us) = 1 := by
  rw [arity_eq_countP plain, Tree.children_node, ← inner.countP_eq plain.textless]
  simp [hvisible]

theorem ChainedForest.hollow_link {w : Label} {t : Tree} {us : List Tree} (slim : Link p w)
    (hvisible : visible p t = true) (inner : ChainedForest p [t] us) :
    hollow p (.node w us) = firstHollow p us := by
  rw [hollow, inner.arity_link plain hvisible, slim.noList]
  rfl

theorem ChainedForest.core_link {w : Label} {t : Tree} {us : List Tree}
    (hvisible : visible p t = true) (inner : ChainedForest p [t] us) :
    View.core p (.node w us) = View.firstCore p (.node w us) us := by
  rw [View.core, if_pos (inner.arity_link plain hvisible)]

end

mutual
theorem Chained.hollow_eq {p : Side} (plain : p.Plain) :
    ∀ {t t' : Tree}, Chained p t t' → hollow p t = hollow p t'
  | .node _ _, .node _ _, .node label children => by
    rw [hollow, hollow, (Chained.node label children).arity_eq plain, label.rule,
      children.firstHollow_eq plain]

theorem ChainedForest.firstHollow_eq {p : Side} (plain : p.Plain) :
    ∀ {ts ts' : List Tree}, ChainedForest p ts ts' → firstHollow p ts = firstHollow p ts'
  | _, _, .nil => rfl
  | _, _, .keep first others => by
    rw [firstHollow, firstHollow, first.visible_eq plain.textless, first.hollow_eq plain,
      others.firstHollow_eq plain]
  | t :: _, .node w us :: _, .link slim hvisible inner others => by
    -- the link counts one child and names no list, so it is as hollow as the tree below it
    rw [firstHollow, firstHollow, hvisible, slim.visible_node plain.textless, if_pos rfl, if_pos rfl,
      inner.hollow_link plain slim hvisible, ← inner.firstHollow_eq plain,
      firstHollow_singleton hvisible]
end

/-! ## What is exposed -/

mutual
theorem Chained.core {p : Side} (plain : p.Plain) :
    ∀ {t t' : Tree}, Chained p t t' → Chained p (core p t) (core p t')
  | .node l cs, .node _ _, .node label children => by
    have h := Chained.node label children
    rw [View.core, View.core, ← h.arity_eq plain]
    split
    · rename_i hone
      rw [arity_eq_countP plain, Tree.children_node] at hone
      exact children.firstCore plain (by omega) _ _
    · exact h

/-- Where a tree is visible, the tree at the end of the chain is found at or below it. -/
theorem ChainedForest.firstCore {p : Side} (plain : p.Plain) :
    ∀ {ts ts' : List Tree}, ChainedForest p ts ts' → 0 < ts.countP (visible p) →
      ∀ self self' : Tree, Chained p (firstCore p self ts) (firstCore p self' ts')
  | _, _, .nil, hpos, _, _ => by simp at hpos
  | t :: _, _, .keep first others, hpos, self, self' => by
    rw [View.firstCore, View.firstCore, ← first.visible_eq plain.textless]
    cases hv : visible p t with
    | true => exact first.core plain
    | false =>
        rw [List.countP_cons_of_neg (by simp [hv])] at hpos
        exact others.firstCore plain hpos self self'
  | t :: _, .node w us :: _, .link slim hvisible inner others, _, self, self' => by
    -- on the one side the chain begins at `t`, on the other one node earlier
    have hinner := inner.firstCore plain (by simp [hvisible]) self (.node w us)
    rw [firstCore_singleton hvisible] at hinner
    rw [View.firstCore, View.firstCore, hvisible, slim.visible_node plain.textless, if_pos rfl,
      if_pos rfl, inner.core_link plain hvisible]
    exact hinner
end

section

variable {p : Side} (plain : p.Plain)
include plain

theorem Chained.solid_eq {t t' : Tree} (h : Chained p t t') : solid p t = solid p t' := by
  rw [solid, solid, h.visible_eq plain.textless, h.hollow_eq plain]

theorem ChainedForest.solid_link {w : Label} {t : Tree} {us : List Tree} (slim : Link p w)
    (hvisible : visible p t = true) (inner : ChainedForest p [t] us) :
    solid p (.node w us) = solid p t := by
  rw [solid, solid, slim.visible_node plain.textless, hvisible, inner.hollow_link plain slim hvisible,
    ← inner.firstHollow_eq plain, firstHollow_singleton hvisible]

theorem ChainedForest.chained_core_link {w : Label} {t : Tree} {us : List Tree}
    (hvisible : visible p t = true) (inner : ChainedForest p [t] us) :
    Chained p (View.core p t) (View.core p (.node w us)) := by
  have hinner := inner.firstCore plain (by simp [hvisible]) t (.node w us)
  rw [firstCore_singleton hvisible] at hinner
  rw [inner.core_link plain hvisible]
  exact hinner

/-- What stands below a link is exposed in place of the link. -/
theorem ChainedForest.cores {ts ts' : List Tree} (h : ChainedForest p ts ts') :
    List.Forall₂ (Chained p) ((ts.filter (solid p)).map (View.core p))
      ((ts'.filter (solid p)).map (View.core p)) := by
  induction ts generalizing ts' with
  | nil =>
      cases h with
      | nil => exact .nil
  | cons t ts ih =>
      cases h with
      | keep first others =>
          rw [List.filter_cons, List.filter_cons, ← first.solid_eq plain]
          split
          · exact .cons (first.core plain) (ih others)
          · exact ih others
      | link slim hvisible inner others =>
          rw [List.filter_cons, List.filter_cons, inner.solid_link plain slim hvisible]
          split
          · exact .cons (inner.chained_core_link plain hvisible) (ih others)
          · exact ih others

theorem Chained.exposed {t t' : Tree} (h : Chained p t t') :
    List.Forall₂ (Chained p) (exposed p t) (exposed p t') := by
  rw [exposed_of_plain fun u _ => transparent_eq_false plain.noWrappers _ u,
    exposed_of_plain fun u _ => transparent_eq_false plain.noWrappers _ u]
  cases h with
  | node label children => exact children.cores plain

end

end View

end TreeAccord
