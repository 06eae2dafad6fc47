import TreeAccord.Proofs.Tree.Preorder
import TreeAccord.View.Exposure

/-! # Arities bound what is exposed

A comparison stops after as many exposed nodes as the arity says. The arity counts children that
are never exposed and looks at wrappers in another way than the cursor does. On a side that looks at
no text and whose wrappers are all visible, it is still no less than the number of exposed nodes. -/

namespace TreeAccord.View

/-! ## Visible wrappers -/

/-- No node below `t` is a transparent wrapper and noise at once. -/
def WrappersVisible (p : Side) (t : Tree) : Prop :=
  ∀ u ∈ t.preorder, ∀ v ∈ u.children, transparent p (some u.rule) v = true → visible p v = true

theorem WrappersVisible.of_mem_preorder {p : Side} {t u : Tree} (h : WrappersVisible p t)
    (hu : u ∈ t.preorder) : WrappersVisible p u :=
  fun v hv => h v (Tree.mem_preorder_trans hv hu)

theorem WrappersVisible.of_mem_children {p : Side} {t u : Tree} (h : WrappersVisible p t)
    (hu : u ∈ t.children) : WrappersVisible p u :=
  h.of_mem_preorder (Tree.mem_preorder_of_mem_children hu)

/-! ## The share of one child -/

/-- What a child below a node of rule `parent` adds to the arity when no text is looked at. -/
def share (p : Side) (parent : String) (t : Tree) : Int :=
  (if visible p t then 1 else 0)
    + (if transparent p (some parent) t then (arity p t : Int) - 1 else 0)

theorem tally_cons_eq_share_add {p : Side} (textless : p.inspectsText = false) (parent : String)
    (t : Tree) (ts : List Tree) :
    tally p parent (t :: ts) = share p parent t + tally p parent ts := by
  rw [tally_cons, share]
  cases visible p t <;> simp [textCorrection, textless]

theorem arity_pos_of_solid {p : Side} {t : Tree} (h : solid p t = true) : 0 < arity p t := by
  simp only [solid, Bool.and_eq_true, Bool.not_eq_true'] at h
  obtain ⟨-, hfull⟩ := h
  rw [hollow_eq] at hfull
  apply Nat.pos_of_ne_zero
  intro hzero
  simp [hzero] at hfull

theorem share_nonneg {p : Side} {parent : String} {t : Tree}
    (hw : transparent p (some parent) t = true → visible p t = true) :
    0 ≤ share p parent t := by
  unfold share
  by_cases ht : transparent p (some parent) t = true
  · rw [if_pos ht, if_pos (hw ht)]
    omega
  · rw [if_neg ht]
    split <;> omega

/-- A solid wrapper has its arity as its share, any other solid child has a share of one. -/
theorem share_of_solid {p : Side} {t : Tree} (h : solid p t = true) (parent : String) :
    share p parent t = if transparent p (some parent) t then (arity p t : Int) else 1 := by
  simp only [solid, Bool.and_eq_true] at h
  rw [share, if_pos h.1]
  split <;> omega

theorem one_le_share_of_solid {p : Side} {t : Tree} (h : solid p t = true) (parent : String) :
    1 ≤ share p parent t := by
  have hpos := arity_pos_of_solid h
  rw [share_of_solid h]
  split <;> omega

/-! ## Lists of children -/

section

variable {p : Side} (textless : p.inspectsText = false)
include textless

theorem length_filter_solid_le_tally {parent : String} {ts : List Tree}
    (hw : ∀ t ∈ ts, transparent p (some parent) t = true → visible p t = true) :
    ((ts.filter (solid p)).length : Int) ≤ tally p parent ts := by
  induction ts with
  | nil => simp
  | cons t ts ih =>
      have hrest := ih fun u hu => hw u (List.mem_cons_of_mem t hu)
      rw [tally_cons_eq_share_add textless]
      cases hs : solid p t with
      | true =>
          have hone := one_le_share_of_solid hs parent
          rw [List.filter_cons_of_pos hs, List.length_cons]
          omega
      | false =>
          have hzero := share_nonneg (hw t List.mem_cons_self)
          rw [List.filter_cons_of_neg (by simp [hs])]
          omega

theorem length_filter_solid_le_arity {t : Tree} (hw : WrappersVisible p t) :
    (t.children.filter (solid p)).length ≤ arity p t := by
  have htally := length_filter_solid_le_tally textless (hw t t.mem_preorder_self)
  rw [arity_eq]
  omega

/-- A solid child has no more stand-ins than its share. -/
theorem length_standIns_le_share {t : Tree} (hw : WrappersVisible p t) (hs : solid p t = true)
    (parent : String) : ((standIns p parent t).length : Int) ≤ share p parent t := by
  have hinner := length_filter_solid_le_arity textless hw
  rw [share_of_solid hs, standIns]
  split
  · rw [List.length_map]
    omega
  · simp

theorem length_flatMap_standIns_le_tally {parent : String} {ts : List Tree}
    (hw : ∀ t ∈ ts, transparent p (some parent) t = true → visible p t = true)
    (hbelow : ∀ t ∈ ts, WrappersVisible p t) :
    (((ts.filter (solid p)).flatMap (standIns p parent)).length : Int) ≤ tally p parent ts := by
  induction ts with
  | nil => simp
  | cons t ts ih =>
      have hrest := ih (fun u hu => hw u (List.mem_cons_of_mem t hu))
        (fun u hu => hbelow u (List.mem_cons_of_mem t hu))
      rw [tally_cons_eq_share_add textless]
      cases hs : solid p t with
      | true =>
          have hfirst := length_standIns_le_share textless (hbelow t List.mem_cons_self) hs parent
          rw [List.filter_cons_of_pos hs, List.flatMap_cons, List.length_append]
          omega
      | false =>
          have hzero := share_nonneg (hw t List.mem_cons_self)
          rw [List.filter_cons_of_neg (by simp [hs])]
          omega

/-- No more nodes are exposed below a node than its arity says. -/
theorem length_exposed_le_arity {t : Tree} (hw : WrappersVisible p t) :
    (exposed p t).length ≤ arity p t := by
  have htally := length_flatMap_standIns_le_tally textless (hw t t.mem_preorder_self)
    fun u hu => hw.of_mem_children hu
  rw [arity_eq]
  unfold exposed
  omega

end

end TreeAccord.View
