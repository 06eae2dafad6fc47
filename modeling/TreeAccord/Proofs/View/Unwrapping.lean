import TreeAccord.Proofs.View.Enumeration
import TreeAccord.Proofs.View.Hollowness
import Mathlib.Data.List.Forall2

/-! # Dissolving wrappers

A wrapper stands for its children, so a tree should look the same when its wrappers are replaced by
what they hold. The arity does look through wrappers at every depth. A cursor enters one wrapper, but
takes a wrapper inside it for an ordinary node; this agrees with the arity only if the inner wrapper
counts as a single child. -/

namespace TreeAccord

/-- The side looks at no text, has no rule that always names a list, and knows its wrappers by their
rules alone. -/
structure Side.Uniform (p : Side) : Prop where
  textless : p.inspectsText = false
  noLists : ∀ rule, p.isListRule rule = false
  unconditional : ∀ rule parent? parent?', p.isWrapper rule parent? = p.isWrapper rule parent?'

namespace View

mutual
/-- The second tree is the first one with each wrapper below its root replaced by the children of the
wrapper, wrappers among these included. Rows and texts may change. -/
inductive Unwrapped (p : Side) : Tree → Tree → Prop where
  | node {l l' : Label} {cs cs' : List Tree} (label : l.Alike l')
      (children : UnwrappedForest p l.rule cs cs') : Unwrapped p (.node l cs) (.node l' cs')

/-- The same of the children of a node of rule `parent`. -/
inductive UnwrappedForest (p : Side) : String → List Tree → List Tree → Prop where
  | nil (parent : String) : UnwrappedForest p parent [] []
  | keep {parent : String} {t t' : Tree} {ts ts' : List Tree}
      (kept : transparent p (some parent) t = false) (first : Unwrapped p t t')
      (others : UnwrappedForest p parent ts ts') : UnwrappedForest p parent (t :: ts) (t' :: ts')
  | dissolve {parent : String} {l : Label} {cs cs' ts ts' : List Tree}
      (wrapper : transparent p (some parent) (.node l cs) = true)
      (inner : UnwrappedForest p l.rule cs cs') (others : UnwrappedForest p parent ts ts') :
      UnwrappedForest p parent (.node l cs :: ts) (cs' ++ ts')
end

mutual
theorem exists_unwrapped (p : Side) : ∀ t : Tree, ∃ t', Unwrapped p t t'
  | .node l cs => by
    obtain ⟨cs', h⟩ := exists_unwrappedForest p l.rule cs
    exact ⟨.node l cs', .node ⟨rfl, rfl, rfl⟩ h⟩

theorem exists_unwrappedForest (p : Side) (parent : String) :
    ∀ ts : List Tree, ∃ ts', UnwrappedForest p parent ts ts'
  | [] => ⟨[], .nil parent⟩
  | .node l cs :: ts => by
    obtain ⟨ts', hothers⟩ := exists_unwrappedForest p parent ts
    obtain ⟨cs', hinner⟩ := exists_unwrappedForest p l.rule cs
    cases hw : transparent p (some parent) (.node l cs) with
    | true => exact ⟨cs' ++ ts', .dissolve hw hinner hothers⟩
    | false => exact ⟨.node l cs' :: ts', .keep hw (.node ⟨rfl, rfl, rfl⟩ hinner) hothers⟩
end

/-! ## Wrappers that stand for something -/

/-- If the node is a wrapper below a node of rule `parent`, it is visible, no terminal, and counts. -/
def Proper (p : Side) (parent : String) (t : Tree) : Prop :=
  transparent p (some parent) t = true → visible p t = true ∧ t.terminal = false ∧ 0 < arity p t

/-- All wrappers below the root are proper. -/
def WellWrapped (p : Side) (t : Tree) : Prop :=
  ∀ u ∈ t.preorder, ∀ v ∈ u.children, Proper p u.rule v

def WellWrappedForest (p : Side) (parent : String) (ts : List Tree) : Prop :=
  ∀ t ∈ ts, Proper p parent t ∧ WellWrapped p t

theorem WellWrapped.of_mem_preorder {p : Side} {t u : Tree} (h : WellWrapped p t)
    (hu : u ∈ t.preorder) : WellWrapped p u :=
  fun v hv => h v (Tree.mem_preorder_trans hv hu)

theorem WellWrapped.forest {p : Side} {t : Tree} (h : WellWrapped p t) :
    WellWrappedForest p t.rule t.children :=
  fun u hu => ⟨h t t.mem_preorder_self u hu,
    h.of_mem_preorder (Tree.mem_preorder_of_mem_children hu)⟩

namespace WellWrappedForest

variable {p : Side} {parent : String} {t : Tree} {ts : List Tree}

theorem head (h : WellWrappedForest p parent (t :: ts)) : WellWrapped p t :=
  (h t List.mem_cons_self).2

theorem proper (h : WellWrappedForest p parent (t :: ts)) : Proper p parent t :=
  (h t List.mem_cons_self).1

theorem tail (h : WellWrappedForest p parent (t :: ts)) : WellWrappedForest p parent ts :=
  fun u hu => h u (List.mem_cons_of_mem t hu)

end WellWrappedForest

/-! ## What is visible and counted -/

mutual
theorem Unwrapped.visible_eq {p : Side} (textless : p.inspectsText = false) :
    ∀ {t t' : Tree}, Unwrapped p t t' → WellWrapped p t → visible p t = visible p t'
  | .node _ _, .node _ _, .node label children, hw => by
    simp only [visible, Tree.label_node, Tree.children_node, Tree.rule]
    rw [isNoise_of_alike textless label, label.rule, children.holdsTerminal_eq textless hw.forest]

theorem UnwrappedForest.holdsTerminal_eq {p : Side} (textless : p.inspectsText = false) :
    ∀ {parent : String} {ts ts' : List Tree}, UnwrappedForest p parent ts ts' →
      WellWrappedForest p parent ts → holdsTerminal p ts = holdsTerminal p ts'
  | _, _, _, .nil _, _ => rfl
  | _, .node _ _ :: _, .node _ _ :: _, .keep _ (.node label children) others, hw => by
    rw [holdsTerminal, holdsTerminal, isNoise_of_alike textless label, label.rule, label.terminal,
      children.holdsTerminal_eq textless hw.head.forest, others.holdsTerminal_eq textless hw.tail]
  | _, _, _, .dissolve wrapper inner others, hw => by
    obtain ⟨hvisible, hterminal, -⟩ := hw.proper wrapper
    rw [holdsTerminal_cons, hvisible, hterminal, holdsTerminal_append, Tree.children_node,
      inner.holdsTerminal_eq textless hw.head.forest, others.holdsTerminal_eq textless hw.tail]
    rfl
end

theorem Unwrapped.alike {p : Side} {t t' : Tree} (h : Unwrapped p t t') :
    t.label.Alike t'.label := by
  cases h with
  | node label children => exact label

theorem Unwrapped.transparent_eq_false {p : Side} (uniform : p.Uniform) {parent : String}
    {t t' : Tree} (h : Unwrapped p t t') (kept : transparent p (some parent) t = false)
    (other : String) : transparent p (some other) t' = false := by
  have hrule : t.rule = t'.rule := h.alike.rule
  rw [transparent, hrule, uniform.unconditional _ _ (some other)] at kept
  exact kept

/-- No wrapper is left. -/
theorem UnwrappedForest.plain {p : Side} (uniform : p.Uniform) :
    ∀ {parent : String} {ts ts' : List Tree}, UnwrappedForest p parent ts ts' →
      ∀ (other : String), ∀ t' ∈ ts', transparent p (some other) t' = false
  | _, _, _, .nil _, _, _, h => by simp at h
  | _, _, _, .keep kept first others, other, t', h => by
    rcases List.mem_cons.mp h with rfl | h
    · exact first.transparent_eq_false uniform kept other
    · exact others.plain uniform other t' h
  | _, _, _, .dissolve _ inner others, other, t', h => by
    rcases List.mem_append.mp h with h | h
    · exact inner.plain uniform other t' h
    · exact others.plain uniform other t' h

/-- A node that counts has the sum of its children's shares as its arity. -/
theorem arity_eq_tally_of_pos {p : Side} {t : Tree} (h : 0 < arity p t) :
    (arity p t : Int) = tally p t.rule t.children := by
  rw [arity_eq] at h ⊢
  omega

/-- A proper wrapper adds its own arity. -/
theorem Proper.share_eq {p : Side} {parent : String} {t : Tree} (h : Proper p parent t)
    (wrapper : transparent p (some parent) t = true) : share p parent t = arity p t := by
  rw [share, if_pos (h wrapper).1, if_pos wrapper]
  omega

mutual
theorem Unwrapped.arity_eq {p : Side} (uniform : p.Uniform) :
    ∀ {t t' : Tree}, Unwrapped p t t' → WellWrapped p t → arity p t = arity p t'
  | .node _ _, .node l' _, .node _ children, hw => by
    rw [arity, arity, children.tally_eq uniform hw.forest l'.rule]

/-- Whatever is dissolved, the children of the node count as many as before, and it does not matter
below which node they stand now. -/
theorem UnwrappedForest.tally_eq {p : Side} (uniform : p.Uniform) :
    ∀ {parent : String} {ts ts' : List Tree}, UnwrappedForest p parent ts ts' →
      WellWrappedForest p parent ts → ∀ other, tally p parent ts = tally p other ts'
  | _, _, _, .nil _, _, _ => by rw [tally_nil, tally_nil]
  | _, _, _, .keep kept first others, hw, other => by
    rw [tally_cons_eq_share_add uniform.textless, tally_cons_eq_share_add uniform.textless, share,
      share, kept, first.transparent_eq_false uniform kept other,
      first.visible_eq uniform.textless hw.head, others.tally_eq uniform hw.tail other]
    rfl
  | _, _, _, .dissolve wrapper inner others, hw, other => by
    obtain ⟨-, -, hpos⟩ := hw.proper wrapper
    rw [tally_cons_eq_share_add uniform.textless, hw.proper.share_eq wrapper,
      arity_eq_tally_of_pos hpos, tally_append uniform.textless,
      ← inner.tally_eq uniform hw.head.forest other, ← others.tally_eq uniform hw.tail other]
    rfl
end

/-! ## The first visible child -/

theorem firstHollow_append {p : Side} {ts : List Tree} (h : 0 < ts.countP (visible p))
    (us : List Tree) : firstHollow p (ts ++ us) = firstHollow p ts := by
  induction ts with
  | nil => simp at h
  | cons t ts ih =>
      rw [List.cons_append, firstHollow, firstHollow]
      cases hv : visible p t with
      | true => rfl
      | false => exact ih (by simpa [List.countP_cons, hv] using h)

theorem firstCore_append {p : Side} {ts : List Tree} (h : 0 < ts.countP (visible p))
    (self self' : Tree) (us : List Tree) :
    firstCore p self (ts ++ us) = firstCore p self' ts := by
  induction ts with
  | nil => simp at h
  | cons t ts ih =>
      rw [List.cons_append, firstCore, firstCore]
      cases hv : visible p t with
      | true => rfl
      | false => exact ih (by simpa [List.countP_cons, hv] using h)

namespace UnwrappedForest

variable {p : Side} (uniform : p.Uniform) {parent : String} {ts ts' : List Tree}
include uniform

/-- What is left when all wrappers are dissolved is as many visible trees as were counted. -/
theorem countP_eq (h : UnwrappedForest p parent ts ts') (hw : WellWrappedForest p parent ts) :
    (ts'.countP (visible p) : Int) = tally p parent ts := by
  rw [h.tally_eq uniform hw parent, tally_eq_countP uniform.textless (h.plain uniform parent)]

/-- If a wrapper comes first and all count as one, the wrapper does alone. -/
theorem tally_of_wrapper {l : Label} {cs : List Tree}
    (wrapper : transparent p (some parent) (.node l cs) = true)
    (h : UnwrappedForest p parent ts ts') (hw : WellWrappedForest p parent (.node l cs :: ts))
    (hone : tally p parent (.node l cs :: ts) = 1) :
    arity p (.node l cs) = 1 ∧ tally p l.rule cs = 1 := by
  obtain ⟨-, -, hpos⟩ := hw.proper wrapper
  have hnonneg := h.countP_eq uniform hw.tail
  have htally := arity_eq_tally_of_pos hpos
  simp only [Tree.rule, Tree.label_node, Tree.children_node] at htally
  rw [tally_cons_eq_share_add uniform.textless, hw.proper.share_eq wrapper] at hone
  omega

end UnwrappedForest

/-- What is neither visible nor a wrapper is not counted. -/
theorem tally_of_hidden {p : Side} (uniform : p.Uniform) {parent : String} {t : Tree}
    {ts : List Tree} (kept : transparent p (some parent) t = false)
    (hidden : visible p t = false) (hone : tally p parent (t :: ts) = 1) :
    tally p parent ts = 1 := by
  rw [tally_cons_eq_share_add uniform.textless, share, hidden, kept] at hone
  simpa using hone

theorem tally_of_arity_eq_one {p : Side} {l : Label} {cs : List Tree}
    (h : arity p (.node l cs) = 1) : tally p l.rule cs = 1 := by
  rw [arity] at h
  omega

mutual
theorem Unwrapped.hollow_eq {p : Side} (uniform : p.Uniform) :
    ∀ {t t' : Tree}, Unwrapped p t t' → WellWrapped p t → hollow p t = hollow p t'
  | .node l cs, .node _ _, .node label children, hw => by
    have harity := (Unwrapped.node label children).arity_eq uniform hw
    rw [hollow, hollow, uniform.noLists, uniform.noLists, ← harity]
    rcases hcount : arity p (.node l cs) with _ | _ | n
    · rfl
    · exact children.firstHollow_eq uniform hw.forest (tally_of_arity_eq_one hcount)
    · rfl

theorem UnwrappedForest.firstHollow_eq {p : Side} (uniform : p.Uniform) :
    ∀ {parent : String} {ts ts' : List Tree}, UnwrappedForest p parent ts ts' →
      WellWrappedForest p parent ts → tally p parent ts = 1 → firstHollow p ts = firstHollow p ts'
  | _, _, _, .nil _, _, _ => rfl
  | _, t :: _, _, .keep kept first others, hw, hone => by
    rw [firstHollow, firstHollow, ← first.visible_eq uniform.textless hw.head,
      first.hollow_eq uniform hw.head]
    cases hv : visible p t with
    | true => rfl
    | false =>
        exact others.firstHollow_eq uniform hw.tail (tally_of_hidden uniform kept hv hone)
  | _, _, _, .dissolve wrapper inner others, hw, hone => by
    obtain ⟨hvisible, -, -⟩ := hw.proper wrapper
    obtain ⟨harity, htally⟩ := others.tally_of_wrapper uniform wrapper hw hone
    have hcount := inner.countP_eq uniform hw.head.forest
    rw [firstHollow, hvisible, if_pos rfl, hollow, uniform.noLists, harity,
      firstHollow_append (by omega)]
    exact inner.firstHollow_eq uniform hw.head.forest htally
end

theorem Unwrapped.solid_eq {p : Side} (uniform : p.Uniform) {t t' : Tree} (h : Unwrapped p t t')
    (hw : WellWrapped p t) : solid p t = solid p t' := by
  rw [solid, solid, h.visible_eq uniform.textless hw, h.hollow_eq uniform hw]

mutual
theorem Unwrapped.core {p : Side} (uniform : p.Uniform) :
    ∀ {t t' : Tree}, Unwrapped p t t' → WellWrapped p t → Unwrapped p (core p t) (core p t')
  | .node l cs, .node _ _, .node label children, hw => by
    have h := Unwrapped.node label children
    rw [View.core, View.core, ← h.arity_eq uniform hw]
    split
    · rename_i hone
      exact children.firstCore uniform hw.forest (tally_of_arity_eq_one hone) _ _
    · exact h

theorem UnwrappedForest.firstCore {p : Side} (uniform : p.Uniform) :
    ∀ {parent : String} {ts ts' : List Tree}, UnwrappedForest p parent ts ts' →
      WellWrappedForest p parent ts → tally p parent ts = 1 → ∀ self self' : Tree,
      Unwrapped p (firstCore p self ts) (firstCore p self' ts')
  | _, _, _, .nil _, _, hone, _, _ => by simp at hone
  | _, t :: _, _, .keep kept first others, hw, hone, self, self' => by
    rw [View.firstCore, View.firstCore, ← first.visible_eq uniform.textless hw.head]
    cases hv : visible p t with
    | true => exact first.core uniform hw.head
    | false =>
        exact others.firstCore uniform hw.tail (tally_of_hidden uniform kept hv hone) self self'
  | _, .node l cs :: _, _, .dissolve wrapper inner others, hw, hone, self, self' => by
    obtain ⟨hvisible, -, -⟩ := hw.proper wrapper
    obtain ⟨harity, htally⟩ := others.tally_of_wrapper uniform wrapper hw hone
    have hcount := inner.countP_eq uniform hw.head.forest
    rw [View.firstCore, hvisible, if_pos rfl, View.core, if_pos harity,
      firstCore_append (by omega) self' self']
    exact inner.firstCore uniform hw.head.forest htally _ _
end

/-! ## What is exposed -/

/-- A single visible tree is exposed by its core, unless it is hollow. -/
theorem map_core_filter_solid_of_single {p : Side} {ts : List Tree}
    (h : ts.countP (visible p) = 1) (self : Tree) :
    (ts.filter (solid p)).map (core p) =
      if firstHollow p ts = true then [] else [firstCore p self ts] := by
  induction ts with
  | nil => simp at h
  | cons t ts ih =>
      rw [firstHollow, firstCore]
      cases hv : visible p t with
      | true =>
          have hnone : ts.countP (visible p) = 0 := by simpa [List.countP_cons, hv] using h
          have hrest : ts.filter (solid p) = [] := by
            rw [List.filter_eq_nil_iff]
            intro u hu
            simp [solid, List.countP_eq_zero.mp hnone u hu]
          cases hh : hollow p t <;> simp [solid, hv, hh, hrest]
      | false =>
          rw [List.filter_cons_of_neg (by simp [solid, hv])]
          exact ih (by simpa [List.countP_cons, hv] using h)

/-- Where no child is a wrapper, each solid one is exposed by its core. -/
theorem exposed_of_plain {p : Side} {t : Tree}
    (plain : ∀ u ∈ t.children, transparent p (some t.rule) u = false) :
    exposed p t = (t.children.filter (solid p)).map (core p) := by
  rw [exposed, ← List.flatMap_pure_eq_map]
  refine List.flatMap_congr fun u hu => ?_
  rw [standIns, plain u (List.mem_filter.mp hu).1]
  rfl

namespace UnwrappedForest

/-- What a wrapper of arity one is replaced by exposes one core, or nothing if it is hollow. -/
theorem map_core_of_single {p : Side} (uniform : p.Uniform) {l : Label} {cs cs' : List Tree}
    (inner : UnwrappedForest p l.rule cs cs') (hw : WellWrapped p (.node l cs))
    (hone : arity p (.node l cs) = 1) :
    (cs'.filter (solid p)).map (View.core p) =
      if hollow p (.node l cs) = true then [] else [View.firstCore p (.node l cs) cs'] := by
  have htally := tally_of_arity_eq_one hone
  have hcount := inner.countP_eq uniform hw.forest
  have hhollow : hollow p (.node l cs) = View.firstHollow p cs' := by
    rw [hollow, uniform.noLists, hone, ← inner.firstHollow_eq uniform hw.forest htally]
    rfl
  rw [hhollow]
  exact map_core_filter_solid_of_single (by omega) _

theorem core_of_single {p : Side} (uniform : p.Uniform) {l : Label} {cs cs' : List Tree}
    (inner : UnwrappedForest p l.rule cs cs') (hw : WellWrapped p (.node l cs))
    (hone : arity p (.node l cs) = 1) :
    Unwrapped p (View.core p (.node l cs)) (View.firstCore p (.node l cs) cs') := by
  rw [View.core, if_pos hone]
  exact inner.firstCore uniform hw.forest (tally_of_arity_eq_one hone) _ _

/-- The cursor takes wrappers inside a wrapper as they are. As long as each counts as one, their
cores are what their children expose. -/
theorem cores {p : Side} (uniform : p.Uniform) {parent : String} {ts ts' : List Tree}
    (h : UnwrappedForest p parent ts ts') (hw : WellWrappedForest p parent ts)
    (thin : ∀ t ∈ ts, transparent p (some parent) t = true → arity p t ≤ 1) :
    List.Forall₂ (Unwrapped p) ((ts.filter (solid p)).map (View.core p))
      ((ts'.filter (solid p)).map (View.core p)) := by
  induction ts generalizing ts' with
  | nil =>
      cases h with
      | nil => exact .nil
  | cons t ts ih =>
      have thinRest := fun u hu => thin u (List.mem_cons_of_mem t hu)
      cases h with
      | keep kept first others =>
          have hrest := ih others hw.tail thinRest
          rw [List.filter_cons, List.filter_cons, ← first.solid_eq uniform hw.head]
          split
          · exact .cons (first.core uniform hw.head) hrest
          · exact hrest
      | @dissolve _ l cs _ _ _ wrapper inner others =>
          have hrest := ih others hw.tail thinRest
          obtain ⟨hvisible, -, hpos⟩ := hw.proper wrapper
          have hle := thin _ List.mem_cons_self wrapper
          have hone : arity p (.node l cs) = 1 := by omega
          rw [List.filter_append, List.map_append, inner.map_core_of_single uniform hw.head hone]
          cases hh : hollow p (.node l cs) with
          | true =>
              rw [List.filter_cons_of_neg (by simp [solid, hh])]
              exact hrest
          | false =>
              rw [List.filter_cons_of_pos (by simp [solid, hh, hvisible])]
              exact .cons (inner.core_of_single uniform hw.head hone) hrest

/-- If no wrapper right inside a wrapper counts as more than one, then what stands for the children
corresponds one by one. -/
theorem standIns {p : Side} (uniform : p.Uniform) {parent : String} {ts ts' : List Tree}
    (h : UnwrappedForest p parent ts ts') (hw : WellWrappedForest p parent ts)
    (thin : ∀ t ∈ ts, transparent p (some parent) t = true → ∀ u ∈ t.children,
      transparent p (some t.rule) u = true → arity p u ≤ 1) :
    List.Forall₂ (Unwrapped p) ((ts.filter (solid p)).flatMap (View.standIns p parent))
      ((ts'.filter (solid p)).map (View.core p)) := by
  induction ts generalizing ts' with
  | nil =>
      cases h with
      | nil => exact .nil
  | cons t ts ih =>
      have thinRest := fun u hu => thin u (List.mem_cons_of_mem t hu)
      cases h with
      | keep kept first others =>
          have hrest := ih others hw.tail thinRest
          have hself : View.standIns p parent t = [View.core p t] := by
            rw [View.standIns, kept]
            rfl
          rw [List.filter_cons, List.filter_cons, ← first.solid_eq uniform hw.head]
          split
          · rw [List.flatMap_cons, hself]
            exact .cons (first.core uniform hw.head) hrest
          · exact hrest
      | @dissolve _ l cs _ _ _ wrapper inner others =>
          have hrest := ih others hw.tail thinRest
          obtain ⟨hvisible, -, hpos⟩ := hw.proper wrapper
          rw [List.filter_append, List.map_append]
          cases hh : hollow p (.node l cs) with
          | true =>
              have hle := arity_le_one_of_hollow uniform.noLists hh
              have hone : arity p (.node l cs) = 1 := by omega
              rw [List.filter_cons_of_neg (by simp [solid, hh]),
                inner.map_core_of_single uniform hw.head hone, if_pos hh]
              exact hrest
          | false =>
              have hinner : View.standIns p parent (.node l cs) =
                  (cs.filter (solid p)).map (View.core p) := if_pos wrapper
              rw [List.filter_cons_of_pos (by simp [solid, hh, hvisible]), List.flatMap_cons, hinner]
              exact List.rel_append
                (inner.cores uniform hw.head.forest (thin _ List.mem_cons_self wrapper)) hrest

end UnwrappedForest

/-! ### Wrappers right inside wrappers -/

/-- No wrapper right inside another one counts as more than one child. -/
def NestedThin (p : Side) (t : Tree) : Prop :=
  ∀ u ∈ t.preorder, ∀ v ∈ u.children, transparent p (some u.rule) v = true →
    ∀ w ∈ v.children, transparent p (some v.rule) w = true → arity p w ≤ 1

instance (p : Side) (t : Tree) : Decidable (NestedThin p t) :=
  inferInstanceAs (Decidable (∀ u ∈ t.preorder, ∀ v ∈ u.children,
    transparent p (some u.rule) v = true →
      ∀ w ∈ v.children, transparent p (some v.rule) w = true → arity p w ≤ 1))

theorem NestedThin.of_mem_preorder {p : Side} {t u : Tree} (h : NestedThin p t)
    (hu : u ∈ t.preorder) : NestedThin p u :=
  fun v hv => h v (Tree.mem_preorder_trans hv hu)

theorem Unwrapped.exposed {p : Side} (uniform : p.Uniform) {t t' : Tree} (h : Unwrapped p t t')
    (hw : WellWrapped p t) (thin : NestedThin p t) :
    List.Forall₂ (Unwrapped p) (exposed p t) (exposed p t') := by
  cases h with
  | @node l l' cs cs' label children =>
      have plain : ∀ u ∈ (Tree.node l' cs').children,
          transparent p (some (Tree.node l' cs').rule) u = false := children.plain uniform l'.rule
      rw [exposed_of_plain plain]
      exact children.standIns uniform hw.forest (thin _ (Tree.mem_preorder_self _))

end View

end TreeAccord
