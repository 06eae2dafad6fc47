import TreeAccord.Proofs.Compare.Concurrence
import TreeAccord.Proofs.Compare.Pairs
import TreeAccord.Proofs.Tree.Linkage
import TreeAccord.Proofs.View.Branching

/-! # Pairs inside pairs

A run takes up each pair below the topmost one while it is busy with the pair around it, and it finds
the nodes of the inner pair exposed below those of the outer one. So no pair below the top holds a
node that is hollow, that stands for another one or that has nothing below it. -/

namespace TreeAccord

open View

/-- A member of a list that is put together from parts belongs to one of them and stands behind the
parts before that one. -/
theorem exists_part_of_flatMap_eq {α β : Type} {f : α → List β} {xs : List α} {before after : List β}
    {y : β} (h : xs.flatMap f = before ++ y :: after) :
    ∃ earlier x later inner rest, xs = earlier ++ x :: later ∧ f x = inner ++ y :: rest ∧
      before = earlier.flatMap f ++ inner := by
  induction xs generalizing before with
  | nil => simp at h
  | cons x xs ih =>
      rw [List.flatMap_cons, List.append_eq_append_iff] at h
      rcases h with ⟨further, rfl, h⟩ | ⟨further, hx, hafter⟩
      · obtain ⟨earlier, x', later, inner, rest, rfl, hx', rfl⟩ := ih h
        exact ⟨x :: earlier, x', later, inner, rest, rfl, hx', by simp⟩
      · cases further with
        | nil =>
            have hxs : xs.flatMap f = [] ++ y :: after := hafter.symm
            obtain ⟨earlier, x', later, inner, rest, rfl, hx', hbefore⟩ := ih hxs
            refine ⟨x :: earlier, x', later, inner, rest, rfl, hx', ?_⟩
            rw [List.flatMap_cons, hx, List.append_nil, List.append_assoc, ← hbefore, List.append_nil]
        | cons z further =>
            obtain ⟨rfl, -⟩ := List.cons.inj hafter
            exact ⟨[], x, xs, before, further, rfl, hx, rfl⟩

/-- A member of the middle one of three parts. -/
theorem exists_middle_of_append_eq {α : Type} {front middle back before after : List α} {y : α}
    (h : front ++ middle ++ back = before ++ y :: after) (hfront : y ∉ front) (hback : y ∉ back) :
    ∃ inner rest, middle = inner ++ y :: rest ∧ before = front ++ inner := by
  have hparts : [front, middle, back].flatMap id = before ++ y :: after := by
    rw [← h]
    simp
  obtain ⟨earlier, part, later, inner, rest, hsplit, hpart, rfl⟩ := exists_part_of_flatMap_eq hparts
  have hmem : y ∈ part := by
    rw [id] at hpart
    simp [hpart]
  rcases earlier with _ | ⟨first, _ | ⟨second, _ | ⟨third, earlier⟩⟩⟩
  · cases hsplit
    exact absurd hmem hfront
  · cases hsplit
    exact ⟨inner, rest, hpart, by simp⟩
  · cases hsplit
    exact absurd hmem hback
  · simp at hsplit

/-- After these steps a run is still busy with the pair that it took up at this depth: whatever it took
up since then lies deeper. -/
def Encloses (steps : List Step) (depth : Nat) (x y : Tree) : Prop :=
  ∃ earlier later, steps = earlier ++ .enter depth x y :: later ∧
    ∀ level a b, .enter level a b ∈ later → depth < level

theorem Encloses.append_left {steps : List Step} {depth : Nat} {x y : Tree}
    (h : Encloses steps depth x y) (front : List Step) : Encloses (front ++ steps) depth x y := by
  obtain ⟨earlier, later, rfl, hdeeper⟩ := h
  exact ⟨front ++ earlier, later, by rw [List.append_assoc], hdeeper⟩

namespace Comparison

variable {s : Comparison} {depth level : Nat} {c r a b : Tree} {before after : List Step}

/-! ## One level down -/

/-- A run takes up its own pair first. Every later pair it takes up in the run from a pair of exposed
nodes, after other such runs. -/
theorem enter_cases (h : (s.compare depth c r).steps = before ++ .enter level a b :: after) :
    (before = [] ∧ level = depth ∧ a = c ∧ b = r) ∨
      ∃ u ∈ exposed s.concordance.candidate c, ∃ v ∈ exposed s.concordance.reference r,
        ∃ outer inner rest, before = .enter depth c r :: outer ++ inner ∧
          (s.compare (depth + 1) u v).steps = inner ++ .enter level a b :: rest ∧
          ∀ level' a' b', .enter level' a' b' ∈ outer →
            ∃ u' ∈ exposed s.concordance.candidate c, ∃ v' ∈ exposed s.concordance.reference r,
              .enter level' a' b' ∈ (s.compare (depth + 1) u' v').steps := by
  obtain ⟨checks, starts, hsteps, hchecks, hstarts⟩ := s.exists_steps_compare depth c r
  have hchecks : ∀ level a b, .enter level a b ∉ checks := by
    intro level a b hmem
    rcases hchecks _ hmem with h | ⟨m, n, h⟩ <;> cases h
  have hclosing : ∀ level a b, .enter level a b ∉ closing c r (s.compare depth c r).verdict := by
    intro level a b hmem
    cases (mem_closing_iff.mp hmem).1
  rw [hsteps] at h
  cases before with
  | nil =>
      obtain ⟨hfirst, -⟩ := List.cons.inj h
      cases hfirst
      exact .inl ⟨rfl, rfl, rfl, rfl⟩
  | cons first before =>
      obtain ⟨rfl, hlater⟩ := List.cons.inj h
      obtain ⟨front, back, hmiddle, rfl⟩ :=
        exists_middle_of_append_eq hlater (hchecks level a b) (hclosing level a b)
      obtain ⟨earlier, start, later, inner, rest, rfl, hinner, rfl⟩ :=
        exists_part_of_flatMap_eq hmiddle
      have hstart : start ∈ earlier ++ start :: later := by simp
      refine .inr ⟨start.1, hstarts.fst_mem hstart, start.2, hstarts.snd_mem hstart,
        checks ++ s.stepsFrom (depth + 1) earlier, inner, rest, ?_, hinner, ?_⟩
      · rw [List.cons_append, List.append_assoc, stepsFrom]
      · intro level' a' b' hmem
        rcases List.mem_append.mp hmem with hmem | hmem
        · exact absurd hmem (hchecks level' a' b')
        · obtain ⟨start', hstart', hmem⟩ := List.mem_flatMap.mp hmem
          have hstart' : start' ∈ earlier ++ start :: later := List.mem_append_left _ hstart'
          exact ⟨start'.1, hstarts.fst_mem hstart', start'.2, hstarts.snd_mem hstart', hmem⟩

/-- A pair is taken up at least as deep as the run starts, and each level uses up a level of both
trees. -/
theorem enter_mem_bounds (h : .enter level a b ∈ (s.compare depth c r).steps) :
    depth ≤ level ∧ level + a.height ≤ depth + c.height ∧ level + b.height ≤ depth + r.height := by
  induction c using exposed_induction s.concordance.candidate generalizing depth r with
  | step c ih =>
      obtain ⟨before, after, hsplit⟩ := List.append_of_mem h
      rcases enter_cases hsplit with
        ⟨-, rfl, rfl, rfl⟩ | ⟨u, hu, v, hv, outer, inner, rest, -, hinner, -⟩
      · exact ⟨Nat.le_refl _, Nat.le_refl _, Nat.le_refl _⟩
      · have hmem : .enter level a b ∈ (s.compare (depth + 1) u v).steps := by
          rw [hinner]
          simp
        obtain ⟨hdeeper, hleft, hright⟩ := ih u hu hmem
        have hu := (below_of_mem_exposed hu).height_lt
        have hv := (below_of_mem_exposed hv).height_lt
        omega

/-! ## The pair around a pair -/

/-- Apart from its own pair, a run takes up pairs of nodes that are exposed below the pair it is busy
with one level higher. -/
theorem exists_encloses (h : (s.compare depth c r).steps = before ++ .enter level a b :: after) :
    (before = [] ∧ level = depth ∧ a = c ∧ b = r) ∨
      ∃ above x y, level = above + 1 ∧ Encloses before above x y ∧
        a ∈ exposed s.concordance.candidate x ∧ b ∈ exposed s.concordance.reference y := by
  induction c using exposed_induction s.concordance.candidate generalizing depth r before after with
  | step c ih =>
      rcases enter_cases h with
        htop | ⟨u, hu, v, hv, outer, inner, rest, rfl, hinner, houter⟩
      · exact .inl htop
      right
      rcases ih u hu hinner with ⟨rfl, rfl, rfl, rfl⟩ | ⟨above, x, y, rfl, hencloses, ha, hb⟩
      · refine ⟨depth, c, r, rfl, ⟨[], outer, by simp, ?_⟩, hu, hv⟩
        intro level a b hmem
        obtain ⟨u', -, v', -, hmem⟩ := houter level a b hmem
        exact (enter_mem_bounds hmem).1
      · exact ⟨above, x, y, rfl, hencloses.append_left _, ha, hb⟩

theorem mem_pairs_of_enter (h : .enter level a b ∈ (s.compare depth c r).steps) :
    (a, b) ∈ (s.compare depth c r).pairs :=
  List.mem_filterMap.mpr ⟨.enter level a b, h, rfl⟩

end Comparison

/-- A node of a built table that has something below it carries no token. -/
theorem NodeTable.Built.terminal_eq_false {t : NodeTable} (h : t.Built) {i : Nat} (hi : i < t.size)
    {u : Tree} (hu : u ∈ (t.subtree i).preorder) (hbranch : u.children ≠ []) : u.terminal = false := by
  rw [Bool.eq_false_iff]
  intro hterminal
  have hmem := Tree.mem_preorder_trans hu (h.subtree_mem_preorder hi)
  exact hbranch (h.terminalsAtLeaves u hmem hterminal)

/-- Whatever the settings and the limit are, a run takes up every pair below the topmost one while it
is busy with a pair one level higher, and the nodes lie below that pair's nodes. On both sides the
node is not hollow, is its own core and counts two nodes or more, so that it has children; in a built
table it carries no token. Each level uses up a level of both trees, and there are no more pairs than
nodes in either of them. -/
theorem pairs_below_top_branch {s : Comparison} {c r a b : Tree} {depth : Nat}
    {before after : List Step}
    (h : (s.run c r).steps = before ++ .enter (depth + 1) a b :: after) :
    (∃ x y, Encloses before depth x y ∧ a.Below x ∧ b.Below y) ∧
      (Branches s.concordance.candidate a ∧ Branches s.concordance.reference b) ∧
      (∀ (t : NodeTable) (i : Nat), t.Built → i < t.size →
        (c = t.subtree i → a.terminal = false) ∧ (r = t.subtree i → b.terminal = false)) ∧
      (depth + 1 + a.height ≤ c.height ∧ depth + 1 + b.height ≤ r.height) ∧
      (s.run c r).pairs.length ≤ min c.size r.size := by
  rw [Comparison.run_eq] at h ⊢
  have hmem : .enter (depth + 1) a b ∈ (s.compare 0 c r).steps := by
    rw [h]
    simp
  have hcoupled := s.coupled_pairs 0 c r
  have hpair := Comparison.mem_pairs_of_enter hmem
  rcases Comparison.exists_encloses h with ⟨-, htop, -⟩ | ⟨above, x, y, hlevel, hencloses, ha, hb⟩
  · cases htop
  obtain rfl : depth = above := Nat.succ.inj hlevel
  have hleft := branches_of_mem_exposed ha
  have hright := branches_of_mem_exposed hb
  refine ⟨⟨x, y, hencloses, below_of_mem_exposed ha, below_of_mem_exposed hb⟩, ⟨hleft, hright⟩,
    ?_, ?_, ?_⟩
  · intro t i ht hi
    constructor
    · rintro rfl
      exact ht.terminal_eq_false hi (hcoupled.fst_mem hpair) hleft.children_ne_nil
    · rintro rfl
      exact ht.terminal_eq_false hi (hcoupled.snd_mem hpair) hright.children_ne_nil
  · have hbounds := Comparison.enter_mem_bounds hmem
    omega
  · have hcandidates := hcoupled.candidates.length_le
    have hreferences := hcoupled.references.length_le
    rw [List.length_map, Tree.length_preorder] at hcandidates hreferences
    exact Nat.le_min.mpr ⟨hcandidates, hreferences⟩

/-! ### A call inside a body -/

/-- The token of a name. -/
def nameTree (row : Nat) (name : String) : Tree := .node ⟨row, "T", some "ID", name, true⟩ []

/-- Two arguments, as a table would number them from `row` on. -/
def argumentsTree (row : Nat) : Tree :=
  .node ⟨row, "Args", none, "xy", false⟩ [nameTree (row + 1) "x", nameTree (row + 2) "y"]

def callTree (row : Nat) : Tree :=
  .node ⟨row, "Call", none, "fxy", false⟩ [nameTree (row + 1) "f", argumentsTree (row + 2)]

/-- A call as the only statement in the body of a function. -/
def layeredTree : Tree :=
  .node ⟨0, "Fun", none, "fxy", false⟩
    [.node ⟨1, "Body", none, "fxy", false⟩ [.node ⟨2, "Stmt", none, "fxy", false⟩ [callTree 3]]]

/-- The call below the function itself. -/
def levelTree : Tree := .node ⟨0, "Fun", none, "fxy", false⟩ [callTree 1]

def layeredTable : NodeTable :=
  .ofRequests "Fun"
    [⟨0, "Body", none⟩, ⟨1, "Stmt", none⟩, ⟨2, "Call", none⟩, ⟨3, "T", some ⟨"ID", "f"⟩⟩,
      ⟨3, "Args", none⟩, ⟨5, "T", some ⟨"ID", "x"⟩⟩, ⟨5, "T", some ⟨"ID", "y"⟩⟩]

/-- What a run does before it takes up the arguments. -/
def stepsToArguments : List Step :=
  [.enter 0 layeredTree levelTree, .count layeredTree levelTree 1 1,
    .enter 1 (callTree 3) (callTree 1), .count (callTree 3) (callTree 1) 2 2]

/-- What a run does once it has taken up the arguments. -/
def stepsFromArguments : List Step :=
  [.count (argumentsTree 5) (argumentsTree 3) 2 2, .settle (argumentsTree 5) (argumentsTree 3),
    .settle (callTree 3) (callTree 1), .settle layeredTree levelTree]

/-- The arguments are taken up inside the call, which is reached through the body and the
statement. -/
theorem branches_layeredTree :
    (layeredTable.Built ∧ 0 < layeredTable.size ∧ layeredTree = layeredTable.subtree 0) ∧
      (wrapperComparison.run layeredTree levelTree).steps =
        stepsToArguments ++ .enter 2 (argumentsTree 5) (argumentsTree 3) :: stepsFromArguments ∧
      Branches wrapperComparison.concordance.candidate (argumentsTree 5) ∧
      (argumentsTree 5).terminal = false := by
  have hbuilt : layeredTable.Built := NodeTable.built_ofRequests _ _
  have htree : layeredTree = layeredTable.subtree 0 := by cbv
  have hsteps : (wrapperComparison.run layeredTree levelTree).steps =
      stepsToArguments ++ .enter 2 (argumentsTree 5) (argumentsTree 3) :: stepsFromArguments := by
    cbv
  obtain ⟨-, ⟨hbranches, -⟩, hterminal, -⟩ := pairs_below_top_branch hsteps
  exact ⟨⟨hbuilt, hbuilt.size_pos, htree⟩, hsteps, hbranches,
    (hterminal layeredTable 0 hbuilt hbuilt.size_pos).1 htree⟩

end TreeAccord
