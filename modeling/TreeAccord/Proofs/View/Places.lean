import TreeAccord.Proofs.View.Enumeration

/-! # Walking by positions

What a cursor has left of two lists can be told by two positions, one among the children of a node
and one inside the wrapper that stands there. A walk by such positions meets the same nodes as the
cursor, and these are the exposed nodes, each at its turn. -/

namespace TreeAccord.View

/-! ## The next solid child -/

variable {p : Side} {t u : Tree} {start : Nat}

/-- What comes from the next solid child on is what remains when the others before it are dropped. -/
theorem drop_nextSolid (p : Side) (t : Tree) (start : Nat) :
    t.children.drop (nextSolid p t start) =
      (t.children.drop start).dropWhile fun u => !solid p u := by
  rw [nextSolid]
  split
  · rw [List.dropWhile_eq_drop_findIdx_not, List.drop_drop]
    simp only [Bool.not_not]
  · rename_i h
    rw [List.drop_of_length_le (Nat.le_refl _), List.drop_of_length_le (Nat.le_of_not_lt h)]
    rfl

theorem le_nextSolid (h : nextSolid p t start < t.children.length) : start ≤ nextSolid p t start := by
  unfold nextSolid at h ⊢
  split
  · omega
  · rename_i hout
    rw [if_neg hout] at h
    omega

/-- A solid child is the next one to itself. -/
theorem nextSolid_of_solid (child : t.children[start]? = some u) (h : solid p u = true) :
    nextSolid p t start = start := by
  obtain ⟨hlt, rfl⟩ := List.getElem?_eq_some_iff.mp child
  rw [nextSolid, if_pos hlt, List.drop_eq_getElem_cons hlt, List.findIdx_cons, h]
  rfl

theorem drop_eq_cons (child : t.children[start]? = some u) :
    t.children.drop start = u :: t.children.drop (start + 1) := by
  obtain ⟨hlt, rfl⟩ := List.getElem?_eq_some_iff.mp child
  exact List.drop_eq_getElem_cons hlt

theorem solid_of_nextSolid (child : t.children[nextSolid p t start]? = some u) :
    solid p u = true := by
  have hrest := drop_nextSolid p t start
  rw [drop_eq_cons child] at hrest
  exact Cursor.solid_of_dropWhile_eq_cons hrest.symm

/-! ## Places -/

/-- A place on the way through the children of a node. -/
structure Place where
  /-- The position of the child that comes next. -/
  next : Nat
  /-- The position inside it, if it is a wrapper that has been entered. -/
  inner : Nat

namespace Place

/-- The place before the first child. -/
def first : Place := ⟨0, 0⟩

/-- The next exposed node below `t`, and the place behind it. -/
def advance (p : Side) (t : Tree) (place : Place) : Option Tree × Place :=
  let next := nextSolid p t place.next
  match _h : t.children[next]? with
  | none => (none, ⟨next, place.inner⟩)
  | some u =>
    if transparent p (some t.rule) u then
      let inner := nextSolid p u place.inner
      match u.children[inner]? with
      | some j => (some (core p j), ⟨next, inner + 1⟩)
      | none => advance p t ⟨next + 1, 0⟩
    else (some (core p u), ⟨next + 1, place.inner⟩)
termination_by t.children.length - place.next
decreasing_by
  have hlt := (List.getElem?_eq_some_iff.mp _h).1
  have hle := le_nextSolid hlt
  omega

/-- There is a position inside the next child only if this is a solid wrapper. -/
def Sound (p : Side) (t : Tree) (place : Place) : Prop :=
  place.inner ≠ 0 → ∃ u, t.children[place.next]? = some u ∧ solid p u = true ∧
    transparent p (some t.rule) u = true

/-- The cursor with what is left at a place. -/
def cursor (t : Tree) (place : Place) : Cursor :=
  if place.inner = 0 then ⟨t.rule, [], t.children.drop place.next⟩
  else ⟨t.rule, (t.children[place.next]?.elim [] Tree.children).drop place.inner,
    t.children.drop (place.next + 1)⟩

/-! ## Cursors at places -/

/-- Children that are not solid are passed over. -/
theorem enter_dropWhile (p : Side) (parent : String) (ts : List Tree) :
    Cursor.enter p parent (ts.dropWhile fun u => !solid p u) = Cursor.enter p parent ts := by
  induction ts with
  | nil => rfl
  | cons u us ih =>
      cases h : solid p u
      · simpa [Cursor.enter, h] using ih
      · simp [h]

/-- A solid wrapper that comes first is entered. -/
theorem enter_wrapper {parent : String} {us : List Tree} (hsolid : solid p u = true)
    (wrapper : transparent p (some parent) u = true) :
    Cursor.enter p parent (u :: us) = Cursor.advance p ⟨parent, u.children, us⟩ := by
  simp [Cursor.enter, Cursor.advance, hsolid, wrapper]

theorem enter_plain {parent : String} {us : List Tree} (hsolid : solid p u = true)
    (plain : transparent p (some parent) u = false) :
    Cursor.enter p parent (u :: us) = (some (core p u), ⟨parent, [], us⟩) := by
  simp [Cursor.enter, hsolid, plain]

variable {place : Place}

theorem cursor_of_inner_eq_zero (h : place.inner = 0) :
    place.cursor t = ⟨t.rule, [], t.children.drop place.next⟩ := by
  rw [cursor, if_pos h]

theorem cursor_of_child (child : t.children[place.next]? = some u) (h : place.inner ≠ 0) :
    place.cursor t =
      ⟨t.rule, u.children.drop place.inner, t.children.drop (place.next + 1)⟩ := by
  rw [cursor, if_neg h, child]
  rfl

/-- Outside of wrappers, the cursor goes on with the next solid child. -/
theorem advance_cursor_of_inner_eq_zero (h : place.inner = 0) :
    (place.cursor t).advance p =
      Cursor.enter p t.rule (t.children.drop (nextSolid p t place.next)) := by
  rw [cursor_of_inner_eq_zero h, drop_nextSolid, enter_dropWhile]
  rfl

/-- Inside a wrapper, the wrapper is the next solid child. -/
theorem nextSolid_of_inner_ne_zero (sound : place.Sound p t) (h : place.inner ≠ 0) :
    nextSolid p t place.next = place.next ∧
      ∃ u, t.children[place.next]? = some u ∧ transparent p (some t.rule) u = true := by
  obtain ⟨u, child, hsolid, wrapper⟩ := sound h
  exact ⟨nextSolid_of_solid child hsolid, u, child, wrapper⟩

theorem inner_eq_zero_of_none (sound : place.Sound p t)
    (hnone : t.children[nextSolid p t place.next]? = none) : place.inner = 0 := by
  by_cases h : place.inner = 0
  · exact h
  · obtain ⟨hnext, u, child, -⟩ := nextSolid_of_inner_ne_zero sound h
    rw [hnext, child] at hnone
    cases hnone

theorem inner_eq_zero_of_plain (sound : place.Sound p t)
    (child : t.children[nextSolid p t place.next]? = some u)
    (plain : transparent p (some t.rule) u = false) : place.inner = 0 := by
  by_cases h : place.inner = 0
  · exact h
  · obtain ⟨hnext, v, hv, wrapper⟩ := nextSolid_of_inner_ne_zero sound h
    rw [hnext, hv] at child
    obtain rfl := Option.some.inj child
    rw [plain] at wrapper
    cases wrapper

/-- Before a wrapper as well as inside it, the cursor goes on with what is left of the wrapper. -/
theorem advance_cursor_of_wrapper (sound : place.Sound p t)
    (child : t.children[nextSolid p t place.next]? = some u)
    (wrapper : transparent p (some t.rule) u = true) :
    (place.cursor t).advance p = Cursor.advance p ⟨t.rule, u.children.drop place.inner,
      t.children.drop (nextSolid p t place.next + 1)⟩ := by
  by_cases h : place.inner = 0
  · rw [advance_cursor_of_inner_eq_zero h, drop_eq_cons child,
      enter_wrapper (solid_of_nextSolid child) wrapper, h]
    rfl
  · obtain ⟨hnext, -⟩ := nextSolid_of_inner_ne_zero sound h
    rw [hnext] at child ⊢
    rw [cursor_of_child child h]

/-- A step from a place is the step of the cursor there. -/
theorem advance_spec (sound : place.Sound p t) :
    (place.cursor t).advance p =
        ((place.advance p t).1, (place.advance p t).2.cursor t) ∧
      (place.advance p t).2.Sound p t := by
  fun_induction advance p t place with
  | case1 place next hnone =>
      have hzero : place.inner = 0 := inner_eq_zero_of_none sound hnone
      have hdrop : t.children.drop next = [] := by simpa using hnone
      have hbehind : cursor t ⟨next, place.inner⟩ = ⟨t.rule, [], t.children.drop next⟩ :=
        cursor_of_inner_eq_zero hzero
      constructor
      · rw [advance_cursor_of_inner_eq_zero hzero, hbehind, hdrop]
        rfl
      · exact fun h => absurd hzero h
  | case2 place next u child wrapper inner j hj =>
      have hinner := drop_nextSolid p u place.inner
      rw [drop_eq_cons hj] at hinner
      constructor
      · rw [advance_cursor_of_wrapper sound child wrapper, Cursor.advance, ← hinner,
          cursor_of_child child (Nat.succ_ne_zero inner)]
      · exact fun _ => ⟨u, child, solid_of_nextSolid child, wrapper⟩
  | case3 place next u child wrapper inner hnone ih =>
      -- nothing is left of the wrapper, and the next turn begins outside of any
      have hinner := drop_nextSolid p u place.inner
      have hdrop : u.children.drop inner = [] := by simpa using hnone
      have outside : Sound p t ⟨next + 1, 0⟩ := fun h => absurd rfl h
      obtain ⟨hstep, hsound⟩ := ih outside
      refine ⟨?_, hsound⟩
      rw [← hstep, advance_cursor_of_wrapper sound child wrapper, Cursor.advance, ← hinner, hdrop,
        cursor_of_inner_eq_zero rfl]
      rfl
  | case4 place next u child plain =>
      have hplain : transparent p (some t.rule) u = false := by simpa using plain
      have hzero : place.inner = 0 := inner_eq_zero_of_plain sound child hplain
      have hbehind :
          cursor t ⟨next + 1, place.inner⟩ = ⟨t.rule, [], t.children.drop (next + 1)⟩ :=
        cursor_of_inner_eq_zero hzero
      constructor
      · rw [advance_cursor_of_inner_eq_zero hzero, drop_eq_cons child,
          enter_plain (solid_of_nextSolid child) hplain, hbehind]
      · exact fun h => absurd hzero h

end Place

/-! ## Calls in a row -/

/-- What the call after `i` earlier ones yields, if each call leaves behind what the next one starts
from. -/
def yields {σ : Type} (step : σ → Option Tree × σ) : Nat → σ → Option Tree
  | 0, s => (step s).1
  | i + 1, s => yields step i (step s).2

theorem yields_cursor (p : Side) (i : Nat) (cursor : Cursor) :
    yields (Cursor.advance p) i cursor = (cursor.rest p)[i]? := by
  induction i generalizing cursor with
  | zero =>
      rw [yields, (Cursor.advance_rest p cursor).1]
      exact List.head?_eq_getElem?
  | succ i ih =>
      rw [yields, ih, (Cursor.advance_rest p cursor).2]
      exact List.getElem?_tail

theorem yields_place (i : Nat) {place : Place} (sound : place.Sound p t) :
    yields (Place.advance p t) i place = yields (Cursor.advance p) i (place.cursor t) := by
  induction i generalizing place with
  | zero => rw [yields, yields, (Place.advance_spec sound).1]
  | succ i ih =>
      obtain ⟨hstep, hsound⟩ := Place.advance_spec sound
      rw [yields, yields, ih hsound, hstep]

/-- The calls in a row yield the exposed nodes, from left to right and each once, and then nothing any
more. It makes no difference whether the walk keeps what is left of two lists or two positions. -/
theorem yields_exposed (p : Side) (t : Tree) (i : Nat) :
    yields (Cursor.advance p) i (.before t) = (exposed p t)[i]? ∧
      yields (Place.advance p t) i .first = (exposed p t)[i]? := by
  have hcursor : yields (Cursor.advance p) i (.before t) = (exposed p t)[i]? := by
    rw [yields_cursor, Cursor.rest_before]
  have hsound : Place.first.Sound p t := fun h => absurd rfl h
  have hfirst : Place.first.cursor t = .before t := rfl
  refine ⟨hcursor, ?_⟩
  rw [yields_place i hsound, hfirst, hcursor]

end TreeAccord.View
