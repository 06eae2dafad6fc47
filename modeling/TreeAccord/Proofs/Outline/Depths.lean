import TreeAccord.Proofs.Outline.Basic
import Mathlib.Data.List.Chain

/-! # Depths of an outline's lines

The depths alone tell where in an outline a line stands, so an outline is known by its lines. -/

namespace TreeAccord.Outline

mutual
theorem le_depth_of_mem_layout {e : Placed} {depth : Nat} :
    ∀ {o : Outline}, e ∈ o.layout depth → depth ≤ e.depth
  | node rule token? children, h => by
    rw [layout] at h
    rcases List.mem_cons.mp h with rfl | h
    · exact Nat.le_refl _
    · exact Nat.le_of_succ_le (le_depth_of_mem_forestLayout h)

theorem le_depth_of_mem_forestLayout {e : Placed} {depth : Nat} :
    ∀ {os : List Outline}, e ∈ forestLayout depth os → depth ≤ e.depth
  | [], h => by simp [forestLayout] at h
  | o :: os, h => by
    rw [forestLayout] at h
    rcases List.mem_append.mp h with h | h
    · exact le_depth_of_mem_layout h
    · exact le_depth_of_mem_forestLayout h
end

theorem depth_of_mem_head?_forestLayout {e : Placed} {depth : Nat} {os : List Outline}
    (h : e ∈ (forestLayout depth os).head?) : e.depth = depth := by
  cases os with
  | nil => simp [forestLayout] at h
  | cons o os =>
      obtain ⟨rule, token?, children⟩ := o
      simp only [forestLayout, layout, List.cons_append, List.head?_cons, Option.mem_def,
        Option.some.injEq] at h
      rw [← h]

/-- How a line of a dump may follow another: below the root, at most one level deeper, and not
deeper than a token. -/
def Follows (a b : Placed) : Prop :=
  0 < b.depth ∧ b.depth ≤ a.depth + 1 ∧ (a.token?.isSome = true → b.depth ≤ a.depth)

theorem follows_mapToken {f : Token → Token} {a b : Placed} (h : Follows a b) :
    Follows (a.mapToken f) (b.mapToken f) := by
  obtain ⟨hpos, hle, hleaf⟩ := h
  refine ⟨hpos, hle, fun htoken => hleaf ?_⟩
  rwa [Placed.mapToken, Option.isSome_map] at htoken

/-- The second line stands where the first one stood, and holds a token only if the first one did. -/
structure KeepsPlace (e e' : Placed) : Prop where
  depth : e'.depth = e.depth
  token : e'.token?.isSome = true → e.token?.isSome = true

theorem follows_of_keepsPlace {a a' b b' : Placed} (h : Follows a b) (ha : KeepsPlace a a')
    (hb : KeepsPlace b b') : Follows a' b' := by
  obtain ⟨hpos, hle, hleaf⟩ := h
  rw [Follows, ha.depth, hb.depth]
  exact ⟨hpos, hle, fun htoken => hleaf (ha.token htoken)⟩

/-- A line that holds a token may be left out. -/
theorem isChain_without_token {a e : Placed} {es : List Placed}
    (h : (a :: e :: es).IsChain Follows) (htoken : e.token?.isSome = true) :
    (a :: es).IsChain Follows := by
  obtain ⟨hfirst, hothers⟩ := List.isChain_cons_cons.mp h
  obtain ⟨hnext, hrest⟩ := List.isChain_cons.mp hothers
  refine List.isChain_cons.mpr ⟨fun b hb => ?_, hrest⟩
  -- what comes after the token is not deeper than it, so it may stand in its place
  obtain ⟨-, hle, hleaf⟩ := hfirst
  obtain ⟨hpos, -, hbeside⟩ := hnext b hb
  have hdepth := hbeside htoken
  refine ⟨hpos, Nat.le_trans hdepth hle, fun ha => Nat.le_trans hdepth (hleaf ha)⟩

theorem isChain_filterMap {f : Placed → Option Placed} {es : List Placed}
    (kept : ∀ e ∈ es, ∀ e', f e = some e' → KeepsPlace e e')
    (dropped : ∀ e ∈ es, f e = none → e.token?.isSome = true) {a a' : Placed}
    (ha : KeepsPlace a a') (h : (a :: es).IsChain Follows) :
    (a' :: es.filterMap f).IsChain Follows := by
  induction es generalizing a a' with
  | nil => exact .singleton a'
  | cons e es ih =>
      obtain ⟨hkept, keptRest⟩ := List.forall_mem_cons.mp kept
      obtain ⟨hdropped, droppedRest⟩ := List.forall_mem_cons.mp dropped
      rw [List.filterMap_cons]
      cases he : f e with
      | none => exact ih keptRest droppedRest ha (isChain_without_token h (hdropped he))
      | some e' =>
          obtain ⟨hfirst, hothers⟩ := List.isChain_cons_cons.mp h
          have hplace := hkept e' he
          exact List.isChain_cons_cons.mpr
            ⟨follows_of_keepsPlace hfirst ha hplace, ih keptRest droppedRest hplace hothers⟩

mutual
/-- Each line of an outline with its tokens at the leaves may follow the one before. -/
theorem isChain_layout (depth : Nat) :
    ∀ {o : Outline}, TokensAtLeaves o → (o.layout depth).IsChain Follows
  | node rule token? children, h => by
    obtain ⟨leaf, below⟩ := h
    rw [layout, List.isChain_cons]
    refine ⟨?_, isChain_forestLayout (Nat.succ_pos depth) below⟩
    intro e he
    have hdepth := depth_of_mem_head?_forestLayout he
    refine ⟨by omega, by simp [hdepth], ?_⟩
    intro htoken
    rw [leaf htoken] at he
    simp [forestLayout] at he

theorem isChain_forestLayout {depth : Nat} (hpos : 0 < depth) :
    ∀ {os : List Outline}, (∀ o ∈ os, TokensAtLeaves o) → (forestLayout depth os).IsChain Follows
  | [], _ => .nil
  | o :: os, h => by
    rw [forestLayout, List.isChain_append]
    refine ⟨isChain_layout depth (h o List.mem_cons_self),
      isChain_forestLayout hpos fun u hu => h u (List.mem_cons_of_mem o hu), ?_⟩
    intro a ha b hb
    have hle := le_depth_of_mem_layout (List.mem_of_getLast? ha)
    have hdepth := depth_of_mem_head?_forestLayout hb
    exact ⟨by omega, by omega, fun _ => by omega⟩
end

/-- The lines below a node are those up to the first that is not deeper. -/
theorem takeWhile_forestLayout (depth : Nat) (children os : List Outline) :
    (forestLayout (depth + 1) children ++ forestLayout depth os).takeWhile
        (fun e => decide (depth < e.depth)) = forestLayout (depth + 1) children := by
  have hdeeper : ∀ e ∈ forestLayout (depth + 1) children, decide (depth < e.depth) = true := by
    intro e he
    exact decide_eq_true (le_depth_of_mem_forestLayout he)
  rw [List.takeWhile_append_of_pos hdeeper]
  cases hhead : forestLayout depth os with
  | nil => simp
  | cons e es =>
      have hdepth : e.depth = depth := depth_of_mem_head?_forestLayout (by rw [hhead]; rfl)
      simp [hdepth]

/-- A forest is known by its lines. -/
theorem forestLayout_injective (depth : Nat) :
    ∀ {os os' : List Outline}, forestLayout depth os = forestLayout depth os' → os = os'
  | [], [], _ => rfl
  | [], node _ _ _ :: _, h => by simp [forestLayout, layout] at h
  | node _ _ _ :: _, [], h => by simp [forestLayout, layout] at h
  | node rule token? children :: os, node rule' token?' children' :: os', h => by
    simp only [forestLayout, layout, List.cons_append, List.cons.injEq, Placed.mk.injEq,
      true_and] at h
    obtain ⟨⟨rfl, rfl⟩, h⟩ := h
    have hbelow : forestLayout (depth + 1) children = forestLayout (depth + 1) children' := by
      rw [← takeWhile_forestLayout depth children os, h, takeWhile_forestLayout]
    have hbeside : forestLayout depth os = forestLayout depth os' := by
      rw [hbelow] at h
      exact List.append_cancel_left h
    rw [forestLayout_injective (depth + 1) hbelow, forestLayout_injective depth hbeside]
termination_by os => forestSize os
decreasing_by
  · simp only [forestSize_cons, size]
    omega
  · simp only [forestSize_cons, size]
    omega

theorem layout_injective {depth : Nat} {o o' : Outline} (h : o.layout depth = o'.layout depth) :
    o = o' := by
  have hforest : forestLayout depth [o] = forestLayout depth [o'] := by
    simpa [forestLayout] using h
  exact List.singleton_inj.mp (forestLayout_injective depth hforest)

end TreeAccord.Outline
