import TreeAccord.Proofs.Compare.Steps
import TreeAccord.Proofs.Dump.Indentation
import TreeAccord.Proofs.Tree.Order
import Mathlib

/-! # The pairs of a run

A run takes up pairs of nodes, and each time goes on to nodes that lie in separate parts of the two
trees, from left to right. So no node is taken up twice, and two pairs stand to each other on one side
as they do on the other. -/

namespace TreeAccord

open View

/-! ## Exposed nodes stand apart -/

namespace View

theorem preorder_standIns_sublist (p : Side) (parent : String) (t : Tree) :
    ((standIns p parent t).flatMap Tree.preorder).Sublist t.preorder := by
  unfold standIns
  split
  · have hcores : ((t.children.filter (solid p)).flatMap fun j => (core p j).preorder).Sublist
        ((t.children.filter (solid p)).flatMap Tree.preorder) :=
      List.Sublist.flatMap_right _ fun j _ => Tree.preorder_sublist (core_mem_preorder p j)
    rw [List.flatMap_map, Tree.preorder_eq t]
    exact (hcores.trans (List.filter_sublist.flatMap _)).cons t
  · simpa using Tree.preorder_sublist (core_mem_preorder p t)

/-- The exposed nodes with all nodes below them are met in order, and none of them twice. -/
theorem preorder_exposed_sublist (p : Side) (t : Tree) :
    ((exposed p t).flatMap Tree.preorder).Sublist (t.children.flatMap Tree.preorder) := by
  have hinside : ((t.children.filter (solid p)).flatMap fun k =>
      (standIns p t.rule k).flatMap Tree.preorder).Sublist
        ((t.children.filter (solid p)).flatMap Tree.preorder) :=
    List.Sublist.flatMap_right _ fun k _ => preorder_standIns_sublist p t.rule k
  rw [exposed, List.flatMap_assoc]
  exact hinside.trans (List.filter_sublist.flatMap _)

end View

/-! ## The pairs taken up -/

/-- The pair that a step takes up. -/
def Step.pair? : Step → Option (Tree × Tree)
  | .enter _ c r => some (c, r)
  | .waive .. | .count .. | .settle .. => none

/-- The pairs that a run takes up, one after another. -/
def Run.pairs (run : Run) : List (Tree × Tree) := run.steps.filterMap Step.pair?

namespace Comparison

variable (s : Comparison)

/-- The pairs taken up at and below each of the given ones. -/
def pairsFrom (depth : Nat) (starts : List (Tree × Tree)) : List (Tree × Tree) :=
  starts.flatMap fun start => (s.compare depth start.1 start.2).pairs

theorem filterMap_stepsFrom (depth : Nat) (starts : List (Tree × Tree)) :
    (s.stepsFrom depth starts).filterMap Step.pair? = s.pairsFrom depth starts :=
  List.filterMap_flatMap

/-- A run takes up its pair first, and then pairs of nodes exposed below it. -/
theorem exists_pairs_compare (depth : Nat) (c r : Tree) :
    ∃ starts, (s.compare depth c r).pairs = (c, r) :: s.pairsFrom (depth + 1) starts ∧
      Coupled (exposed s.concordance.candidate c) (exposed s.concordance.reference r) starts := by
  obtain ⟨checks, starts, hsteps, hchecks, hstarts⟩ := s.exists_steps_compare depth c r
  have hchecks : checks.filterMap Step.pair? = [] := by
    rw [List.filterMap_eq_nil_iff]
    intro step hstep
    rcases hchecks step hstep with rfl | ⟨m, n, rfl⟩ <;> rfl
  have hclosing : (closing c r (s.compare depth c r).verdict).filterMap Step.pair? = [] := by
    rw [List.filterMap_eq_nil_iff]
    intro step hstep
    obtain ⟨rfl, -⟩ := mem_closing_iff.mp hstep
    rfl
  have henter : Step.pair? (.enter depth c r) = some (c, r) := rfl
  refine ⟨starts, ?_, hstarts⟩
  rw [Run.pairs, hsteps, List.filterMap_cons_some henter, List.filterMap_append,
    List.filterMap_append, hchecks, hclosing, filterMap_stepsFrom, List.nil_append, List.append_nil]

/-! ## Each side in order -/

/-- What is taken up from nodes in order is in order, if it is so from each of them. -/
theorem pairsFrom_sublist {depth : Nat} {starts : List (Tree × Tree)} {side : Tree × Tree → Tree}
    {ts : List Tree} (hstarts : (starts.map side).Sublist ts)
    (h : ∀ start ∈ starts,
      ((s.compare depth start.1 start.2).pairs.map side).Sublist (side start).preorder) :
    ((s.pairsFrom depth starts).map side).Sublist (ts.flatMap Tree.preorder) := by
  have hall := hstarts.flatMap Tree.preorder
  rw [List.flatMap_map] at hall
  rw [pairsFrom, List.map_flatMap]
  exact (List.Sublist.flatMap_right starts h).trans hall

theorem coupled_pairsFrom (depth : Nat) {c r : Tree} {starts : List (Tree × Tree)}
    (hstarts : Coupled (exposed s.concordance.candidate c) (exposed s.concordance.reference r) starts)
    (h : ∀ start ∈ starts,
      Coupled start.1.preorder start.2.preorder (s.compare depth start.1 start.2).pairs) :
    Coupled (c.children.flatMap Tree.preorder) (r.children.flatMap Tree.preorder)
      (s.pairsFrom depth starts) where
  candidates := (s.pairsFrom_sublist hstarts.candidates fun start hstart =>
    (h start hstart).candidates).trans (preorder_exposed_sublist _ c)
  references := (s.pairsFrom_sublist hstarts.references fun start hstart =>
    (h start hstart).references).trans (preorder_exposed_sublist _ r)

/-- The nodes of the pairs are met in the order in which the pairs are taken up. -/
theorem coupled_pairs (depth : Nat) (c r : Tree) :
    Coupled c.preorder r.preorder (s.compare depth c r).pairs := by
  induction c using exposed_induction s.concordance.candidate generalizing depth r with
  | step c ih =>
      obtain ⟨starts, hpairs, hstarts⟩ := s.exists_pairs_compare depth c r
      have hbelow := s.coupled_pairsFrom (depth + 1) hstarts fun start hstart =>
        ih _ (hstarts.fst_mem hstart) (depth + 1) start.2
      rw [hpairs, Tree.preorder_eq c, Tree.preorder_eq r]
      exact hbelow.cons c r

/-! ## One below another -/

/-- Of two pairs, one candidate stands below the other exactly if its reference does. -/
structure Alongside (x y : Tree × Tree) : Prop where
  below : y.1.Below x.1 ↔ y.2.Below x.2
  above : x.1.Below y.1 ↔ x.2.Below y.2

instance : Std.Symm Alongside := ⟨fun _ _ h => ⟨h.above, h.below⟩⟩

theorem alongside_self (x : Tree × Tree) : Alongside x x :=
  ⟨iff_of_false (Tree.not_below_self _) (Tree.not_below_self _),
    iff_of_false (Tree.not_below_self _) (Tree.not_below_self _)⟩

/-- Nodes of trees that share no node do not stand below each other. -/
theorem not_below_of_disjoint {t t' u u' : Tree} (h : List.Disjoint t.preorder t'.preorder)
    (hu : u ∈ t.preorder) (hu' : u' ∈ t'.preorder) : ¬u'.Below u ∧ ¬u.Below u' := by
  constructor
  · intro hbelow
    exact h (Tree.mem_preorder_trans (Tree.mem_preorder_iff_below.mpr (.inr hbelow)) hu) hu'
  · intro hbelow
    exact h hu (Tree.mem_preorder_trans (Tree.mem_preorder_iff_below.mpr (.inr hbelow)) hu')

/-- Starts in order share no node, if the nodes are distinct. -/
theorem pairwise_disjoint {starts : List (Tree × Tree)} {side : Tree × Tree → Tree}
    {p : Side} {t : Tree} (hstarts : (starts.map side).Sublist (exposed p t))
    (distinct : t.preorder.Nodup) :
    starts.Pairwise fun x y => List.Disjoint (side x).preorder (side y).preorder := by
  rw [Tree.preorder_eq] at distinct
  have hexposed := distinct.of_cons.sublist (preorder_exposed_sublist p t)
  have hapart := (List.nodup_flatMap.mp hexposed).2.sublist hstarts
  rw [List.pairwise_map] at hapart
  exact hapart

/-- The topmost pair has all others below it on both sides. Pairs from one start are left to the
induction, and pairs from two starts lie in separate parts of both trees. -/
theorem pairwise_alongside (depth : Nat) {c r : Tree} (hc : c.preorder.Nodup)
    (hr : r.preorder.Nodup) : (s.compare depth c r).pairs.Pairwise Alongside := by
  induction c using exposed_induction s.concordance.candidate generalizing depth r with
  | step c ih =>
      obtain ⟨starts, hpairs, hstarts⟩ := s.exists_pairs_compare depth c r
      have hbelow := s.coupled_pairsFrom (depth + 1) hstarts
        fun start _ => s.coupled_pairs (depth + 1) start.1 start.2
      rw [hpairs, List.pairwise_cons]
      constructor
      · intro y hy
        have hyc : y.1.Below c := Tree.below_iff.mpr (List.mem_flatMap.mp (hbelow.fst_mem hy))
        have hyr : y.2.Below r := Tree.below_iff.mpr (List.mem_flatMap.mp (hbelow.snd_mem hy))
        exact ⟨iff_of_true hyc hyr, iff_of_false (fun h => Tree.not_below_self c (h.trans hyc))
          fun h => Tree.not_below_self r (h.trans hyr)⟩
      · rw [pairsFrom, List.pairwise_flatMap]
        constructor
        · intro start hstart
          have hmemC := hstarts.fst_mem hstart
          have hmemR := hstarts.snd_mem hstart
          exact ih _ hmemC _ (hc.sublist (Tree.preorder_sublist (mem_preorder_of_mem_exposed hmemC)))
            (hr.sublist (Tree.preorder_sublist (mem_preorder_of_mem_exposed hmemR)))
        · refine ((pairwise_disjoint hstarts.candidates hc).and
            (pairwise_disjoint hstarts.references hr)).imp ?_
          intro start start' hdisjoint x hx y hy
          have hxs := s.coupled_pairs (depth + 1) start.1 start.2
          have hys := s.coupled_pairs (depth + 1) start'.1 start'.2
          have hleft := not_below_of_disjoint hdisjoint.1 (hxs.fst_mem hx) (hys.fst_mem hy)
          have hright := not_below_of_disjoint hdisjoint.2 (hxs.snd_mem hx) (hys.snd_mem hy)
          exact ⟨iff_of_false hleft.1 hright.1, iff_of_false hleft.2 hright.2⟩

end Comparison

/-! ## Rows of two tables -/

/-- The rows of the nodes that a run takes up in pairs. -/
def Run.rowPairs (run : Run) : List (Nat × Nat) := run.pairs.map fun x => (x.1.row, x.2.row)

/-- Pairs of rows that carry a part of one table over to a part of the other: no row is in two pairs,
and rows stand above each other and follow one another in the one table as they do in the other. -/
structure Embedding (t u : NodeTable) (pairs : List (Nat × Nat)) : Prop where
  lt_size : ∀ x ∈ pairs, x.1 < t.size ∧ x.2 < u.size
  candidates_distinct : (pairs.map Prod.fst).Nodup
  references_distinct : (pairs.map Prod.snd).Nodup
  above_iff : ∀ x ∈ pairs, ∀ y ∈ pairs, t.Above x.1 y.1 ↔ u.Above x.2 y.2
  precedes_iff : ∀ x ∈ pairs, ∀ y ∈ pairs, t.tree.Precedes x.1 y.1 ↔ u.tree.Precedes x.2 y.2

namespace NodeTable.Built

variable {t u : NodeTable}

/-- Rows tell the nodes of a built table apart. -/
theorem nodup_preorder_subtree (h : Built t) {i : Nat} (hi : i < t.size) :
    ((t.subtree i).preorder.map Tree.row).Nodup :=
  h.nodup_visits.sublist ((Tree.preorder_sublist (h.subtree_mem_preorder hi)).map Tree.row)

end NodeTable.Built

/-- Of two members of a list, one stands before the other unless they are the same. -/
theorem eq_or_sublist_pair {α : Type} {l : List α} {x y : α} (hx : x ∈ l) (hy : y ∈ l) :
    x = y ∨ [x, y].Sublist l ∨ [y, x].Sublist l := by
  let Ordered (x y : α) : Prop := x = y ∨ [x, y].Sublist l ∨ [y, x].Sublist l
  have : Std.Symm Ordered := ⟨fun _ _ h => h.imp Eq.symm Or.symm⟩
  have hpairwise : l.Pairwise Ordered :=
    List.pairwise_iff_forall_sublist.mpr fun h => .inr (.inl h)
  exact hpairwise.forall_of_forall (fun _ _ => .inl rfl) hx hy

section

variable {t u : NodeTable} {s : Comparison} {i j : Nat} (ht : t.Built) (hu : u.Built)
  (hi : i < t.size) (hj : j < u.size)
include ht hu hi hj

/-- The rows of the pairs are met in order on both sides. -/
theorem rowPairs_sublist :
    ((s.run (t.subtree i) (u.subtree j)).rowPairs.map Prod.fst).Sublist
        (t.tree.preorder.map Tree.row) ∧
      ((s.run (t.subtree i) (u.subtree j)).rowPairs.map Prod.snd).Sublist
        (u.tree.preorder.map Tree.row) := by
  rw [Comparison.run_eq]
  have hcoupled := s.coupled_pairs 0 (t.subtree i) (u.subtree j)
  have hleft := hcoupled.candidates.trans (Tree.preorder_sublist (ht.subtree_mem_preorder hi))
  have hright := hcoupled.references.trans (Tree.preorder_sublist (hu.subtree_mem_preorder hj))
  have hrowsLeft := hleft.map Tree.row
  have hrowsRight := hright.map Tree.row
  rw [List.map_map] at hrowsLeft hrowsRight
  rw [Run.rowPairs, List.map_map, List.map_map]
  exact ⟨hrowsLeft, hrowsRight⟩

/-- A pair that is taken up before another precedes it on both sides, and does not follow it on
either. -/
theorem precedes_of_sublist_rowPairs {x y : Nat × Nat}
    (h : [x, y].Sublist (s.run (t.subtree i) (u.subtree j)).rowPairs) :
    (t.tree.Precedes x.1 y.1 ∧ u.tree.Precedes x.2 y.2) ∧
      ¬t.tree.Precedes y.1 x.1 ∧ ¬u.tree.Precedes y.2 x.2 := by
  obtain ⟨hleft, hright⟩ := rowPairs_sublist (s := s) ht hu hi hj
  have hxy : t.tree.Precedes x.1 y.1 := (h.map Prod.fst).trans hleft
  have hxy' : u.tree.Precedes x.2 y.2 := (h.map Prod.snd).trans hright
  exact ⟨⟨hxy, hxy'⟩, hxy.asymm ht.nodup_visits, hxy'.asymm hu.nodup_visits⟩

theorem precedes_iff_of_mem_rowPairs {x y : Nat × Nat}
    (hx : x ∈ (s.run (t.subtree i) (u.subtree j)).rowPairs)
    (hy : y ∈ (s.run (t.subtree i) (u.subtree j)).rowPairs) :
    t.tree.Precedes x.1 y.1 ↔ u.tree.Precedes x.2 y.2 := by
  rcases eq_or_sublist_pair hx hy with rfl | hxy | hyx
  · exact iff_of_false (fun h => h.asymm ht.nodup_visits h) fun h => h.asymm hu.nodup_visits h
  · obtain ⟨⟨hleft, hright⟩, -⟩ := precedes_of_sublist_rowPairs ht hu hi hj hxy
    exact iff_of_true hleft hright
  · obtain ⟨-, hleft, hright⟩ := precedes_of_sublist_rowPairs ht hu hi hj hyx
    exact iff_of_false hleft hright

omit ht hu in
/-- A pair of rows comes of the nodes at these rows. -/
theorem exists_pair_of_mem_rowPairs {x : Nat × Nat}
    (hx : x ∈ (s.run (t.subtree i) (u.subtree j)).rowPairs) :
    (x.1 < t.size ∧ x.2 < u.size) ∧
      (t.subtree x.1, u.subtree x.2) ∈ (s.run (t.subtree i) (u.subtree j)).pairs := by
  rw [Comparison.run_eq] at hx ⊢
  obtain ⟨pair, hpair, rfl⟩ := List.mem_map.mp hx
  have hcoupled := s.coupled_pairs 0 (t.subtree i) (u.subtree j)
  obtain ⟨hlt, hleft⟩ := NodeTable.eq_subtree_of_mem_preorder hi _ (hcoupled.fst_mem hpair)
  obtain ⟨hlt', hright⟩ := NodeTable.eq_subtree_of_mem_preorder hj _ (hcoupled.snd_mem hpair)
  refine ⟨⟨hlt, hlt'⟩, ?_⟩
  dsimp only
  rwa [← hleft, ← hright]

theorem above_iff_of_mem_rowPairs {x y : Nat × Nat}
    (hx : x ∈ (s.run (t.subtree i) (u.subtree j)).rowPairs)
    (hy : y ∈ (s.run (t.subtree i) (u.subtree j)).rowPairs) :
    t.Above x.1 y.1 ↔ u.Above x.2 y.2 := by
  obtain ⟨⟨hxt, hxu⟩, hx⟩ := exists_pair_of_mem_rowPairs hi hj hx
  obtain ⟨⟨hyt, hyu⟩, hy⟩ := exists_pair_of_mem_rowPairs hi hj hy
  rw [Comparison.run_eq] at hx hy
  have hpairwise := s.pairwise_alongside 0 (ht.nodup_preorder_subtree hi).of_map
    (hu.nodup_preorder_subtree hj).of_map
  have halongside := hpairwise.forall_of_forall (fun x _ => Comparison.alongside_self x) hx hy
  rw [ht.above_iff_below hxt hyt, hu.above_iff_below hxu hyu]
  exact halongside.below

/-- Whatever the settings and the limit are, and wherever in two built tables a run starts, the pairs
that it takes up embed the rows of the one table into the rows of the other. So there are no more
pairs than nodes in either tree. -/
theorem embedding_rowPairs :
    Embedding t u (s.run (t.subtree i) (u.subtree j)).rowPairs ∧
      (s.run (t.subtree i) (u.subtree j)).rowPairs.length ≤
        min (t.subtree i).size (u.subtree j).size := by
  obtain ⟨hleft, hright⟩ := rowPairs_sublist (s := s) ht hu hi hj
  refine ⟨⟨fun x hx => (exists_pair_of_mem_rowPairs hi hj hx).1,
    ht.nodup_visits.sublist hleft, hu.nodup_visits.sublist hright,
    fun x hx y hy => above_iff_of_mem_rowPairs ht hu hi hj hx hy,
    fun x hx y hy => precedes_iff_of_mem_rowPairs ht hu hi hj hx hy⟩, ?_⟩
  have hcoupled := s.coupled_pairs 0 (t.subtree i) (u.subtree j)
  have hcandidates := hcoupled.candidates.length_le
  have hreferences := hcoupled.references.length_le
  rw [List.length_map, Tree.length_preorder] at hcandidates hreferences
  rw [Comparison.run_eq, Run.rowPairs, List.length_map]
  exact Nat.le_min.mpr ⟨hcandidates, hreferences⟩

end

/-! ### A chain on one side -/

/-- Two nodes of two leaves each, the second of them alone below a node of its own. -/
def chainedTable : NodeTable where
  rows := #[⟨"R", none, none, [1, 4]⟩, ⟨"A", none, some 0, [2, 3]⟩, ⟨"x", none, some 1, []⟩,
    ⟨"y", none, some 1, []⟩, ⟨"C", none, some 0, [5]⟩, ⟨"B", none, some 4, [6, 7]⟩,
    ⟨"x", none, some 5, []⟩, ⟨"y", none, some 5, []⟩]
  forward := NodeTable.forward_of_forall (by decide)

/-- The same nodes side by side. -/
def forkTable : NodeTable where
  rows := #[⟨"R", none, none, [1, 4]⟩, ⟨"A", none, some 0, [2, 3]⟩, ⟨"x", none, some 1, []⟩,
    ⟨"y", none, some 1, []⟩, ⟨"B", none, some 0, [5, 6]⟩, ⟨"x", none, some 4, []⟩,
    ⟨"y", none, some 4, []⟩]
  forward := NodeTable.forward_of_forall (by decide)

theorem built_chainedTable : chainedTable.Built := by
  have hread : Dump.decode "R\n  A\n    x\n    y\n  C\n    B\n      x\n      y\n" =
    .ok chainedTable := rfl
  exact (Dump.built_of_decodeWith rfl hread).1

theorem built_forkTable : forkTable.Built := by
  have hread : Dump.decode "R\n  A\n    x\n    y\n  B\n    x\n    y\n" = .ok forkTable := rfl
  exact (Dump.built_of_decodeWith rfl hread).1

/-- The chain is passed over: the node at its end is the one that is taken up. -/
theorem embedding_chainedTable :
    (chainedTable.Built ∧ forkTable.Built ∧ 0 < chainedTable.size ∧ 0 < forkTable.size) ∧
      (Comparison.run ⟨default, none⟩ (chainedTable.subtree 0) (forkTable.subtree 0)).rowPairs =
        [(0, 0), (1, 1), (5, 4)] ∧
      Embedding chainedTable forkTable [(0, 0), (1, 1), (5, 4)] := by
  have hsize : 0 < chainedTable.size ∧ 0 < forkTable.size := by decide
  have hpairs : (Comparison.run ⟨default, none⟩ (chainedTable.subtree 0)
      (forkTable.subtree 0)).rowPairs = [(0, 0), (1, 1), (5, 4)] := by cbv
  refine ⟨⟨built_chainedTable, built_forkTable, hsize⟩, hpairs, ?_⟩
  rw [← hpairs]
  exact (embedding_rowPairs built_chainedTable built_forkTable hsize.1 hsize.2).1

end TreeAccord
