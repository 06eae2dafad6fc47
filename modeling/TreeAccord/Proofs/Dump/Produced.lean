import TreeAccord.Proofs.Dump.Indentation
import TreeAccord.Proofs.Dump.Written

/-! # Dumps of trees from elsewhere

A producer of trees need not know about tokens: to it every childless node is a terminal, with or
without a kind, and texts are what they are. If its names can be told apart, the dump of its tree
is read as a tree of the same rules and kinds. Texts come back with escapes, or as the kind fixes
them. -/

namespace TreeAccord

open Outline (Placed Follows)

/-! ## Outlines of trees -/

namespace Tree

theorem tokensAtLeaves_outline {t : Tree}
    (h : ∀ u ∈ t.preorder, u.kind?.isSome = true → u.children = []) :
    Outline.TokensAtLeaves t.outline := by
  rw [outline_eq]
  apply Outline.TokensAtLeaves.node
  · intro htoken
    rw [Option.isSome_map] at htoken
    rw [h t (mem_preorder_self t) htoken, List.map_nil]
  · rw [List.forall_mem_map]
    intro u hu
    exact tokensAtLeaves_outline fun v hv =>
      h v (mem_preorder_trans hv (mem_preorder_of_mem_children hu))
termination_by t.size
decreasing_by exact size_lt_of_mem_children hu

mutual
/-- Each line of an outline is that of a node of the tree. -/
theorem exists_of_mem_layout {e : Placed} (depth : Nat) : ∀ t : Tree, e ∈ t.outline.layout depth →
    ∃ u ∈ t.preorder, e.rule = u.rule ∧ e.token? = u.kind?.map fun kind => ⟨kind, u.text⟩
  | .node l cs, h => by
    rw [outline, Outline.layout, List.mem_cons] at h
    rw [preorder]
    rcases h with rfl | h
    · exact ⟨.node l cs, List.mem_cons_self, rfl, rfl⟩
    · obtain ⟨u, hu, he⟩ := exists_of_mem_forestLayout (depth + 1) cs h
      exact ⟨u, List.mem_cons_of_mem _ hu, he⟩

theorem exists_of_mem_forestLayout {e : Placed} (depth : Nat) : ∀ ts : List Tree,
    e ∈ Outline.forestLayout depth (forestOutline ts) →
    ∃ u ∈ forestPreorder ts, e.rule = u.rule ∧ e.token? = u.kind?.map fun kind => ⟨kind, u.text⟩
  | t :: ts, h => by
    rw [forestOutline, Outline.forestLayout, List.mem_append] at h
    rw [forestPreorder]
    rcases h with h | h
    · obtain ⟨u, hu, he⟩ := exists_of_mem_layout depth t h
      exact ⟨u, List.mem_append_left _ hu, he⟩
    · obtain ⟨u, hu, he⟩ := exists_of_mem_forestLayout depth ts h
      exact ⟨u, List.mem_append_right _ hu, he⟩
end

end Tree

namespace Dump

/-! ## Names that can be told apart -/

/-- Rule and kind of a node below the root that a dump tells apart, whatever the text is. -/
inductive Tellable : String → Option String → Prop where
  | bare {rule : String} (name : NameSafe rule) (nonempty : rule ≠ "")
      (trimmed : Text.trimEnd rule.toList = rule.toList) : Tellable rule none
  | token {rule kind : String} (name : NameSafe rule) (closing : ')' ∉ kind.toList)
      (lineFeed : '\n' ∉ kind.toList) (sentinel : isSentinel kind = false) :
      Tellable rule (some kind)

instance (rule : String) (kind? : Option String) : Decidable (Tellable rule kind?) :=
  match kind? with
  | none =>
    decidable_of_iff (NameSafe rule ∧ rule ≠ "" ∧ Text.trimEnd rule.toList = rule.toList)
      ⟨fun ⟨name, nonempty, trimmed⟩ => .bare name nonempty trimmed,
        fun | .bare name nonempty trimmed => ⟨name, nonempty, trimmed⟩⟩
  | some kind =>
    decidable_of_iff
      (NameSafe rule ∧ ')' ∉ kind.toList ∧ '\n' ∉ kind.toList ∧ isSentinel kind = false)
      ⟨fun ⟨name, closing, lineFeed, sentinel⟩ => .token name closing lineFeed sentinel,
        fun | .token name closing lineFeed sentinel => ⟨name, closing, lineFeed, sentinel⟩⟩

/-- The token that is read where one of any text was written. -/
def recalled (token : Token) : Token :=
  ⟨token.kind, (parenthesis? token.kind).getD (escape token.text)⟩

section

variable {rule : String} {kind? : Option String} (h : Tellable rule kind?) (text : String)
include h

theorem Tellable.lineSafe : LineSafe rule (kind?.map fun kind => ⟨kind, text⟩) := by
  cases h with
  | bare name nonempty trimmed => exact .safe (.bare name nonempty trimmed)
  | token name closing lineFeed sentinel =>
      exact ⟨lineFeed_not_mem_ordinary sentinel text name.lineFeed lineFeed,
        head?_ordinary sentinel text name⟩

theorem Tellable.reread? :
    Dump.reread? (nodeEntry rule (kind?.map fun kind => ⟨kind, text⟩)).toList =
      some (rule, (kind?.map fun kind => ⟨kind, text⟩).map recalled) := by
  cases h with
  | bare name nonempty trimmed => exact reread?_nodeEntry (.bare name nonempty trimmed)
  | token name closing lineFeed sentinel =>
      rw [Option.map_some, reread?_of_endsSolid (endsSolid_ordinary sentinel text),
        nodeEntry_ordinary sentinel, splitEntry_ordinary name closing]
      rfl

end

/-- A tree of a producer to which every childless node is a terminal. Only childless nodes have
kinds, there is something below the root, and the names can be told apart. -/
structure Presentable (c : Tree) : Prop where
  branching : c.children ≠ []
  terminal_eq : ∀ u ∈ c.preorder, u.terminal = u.children.isEmpty
  kinds : ∀ u ∈ c.preorder, u.kind?.isSome = true → u.children = []
  title : TitleSafe c.rule
  below : ∀ u ∈ Tree.forestPreorder c.children, Tellable u.rule u.kind?

namespace Presentable

variable {c : Tree} (h : Presentable c)
include h

theorem token?_root : c.outline.token? = none := by
  have hnone : c.kind? = none := by
    rw [← Option.not_isSome_iff_eq_none]
    exact fun hkind => h.branching (h.kinds c (Tree.mem_preorder_self c) hkind)
  rw [Tree.outline_eq, hnone]
  rfl

theorem exists_tellable {e : Placed} (he : e ∈ Outline.forestLayout 1 c.outline.children) :
    ∃ kind? text, Tellable e.rule kind? ∧ e.token? = kind?.map fun kind => ⟨kind, text⟩ := by
  have hbelow := h.below
  obtain ⟨l, cs⟩ := c
  obtain ⟨u, hu, hrule, htoken⟩ := Tree.exists_of_mem_forestLayout 1 cs he
  exact ⟨u.kind?, u.text, hrule ▸ hbelow u hu, htoken⟩

theorem terminalsAtLeaves : c.TerminalsAtLeaves := by
  intro u hu hterminal
  rw [h.terminal_eq u hu] at hterminal
  exact List.isEmpty_iff.mp hterminal

/-- The lines of the dump, as they are read. -/
theorem nodeLines_print :
    ∃ root rest, nodeLines (print .plain c) = root :: rest ∧
      (∀ line ∈ rest, line.spaces = line.depth * indentWidth) ∧
      (c.outline.mapTokens recalled).layout 0 =
        ⟨0, root.title, none⟩ :: rest.map (Line.placed id) := by
  have hterminal : ∀ u ∈ c.preorder, u.kind?.isSome = true → u.terminal = true := by
    intro u hu hkind
    rw [h.terminal_eq u hu, h.kinds u hu hkind]
    rfl
  have hrule : c.outline.rule = c.rule := by
    rw [Tree.outline_eq]
    rfl
  have hsafe : ∀ e ∈ Outline.forestLayout 1 c.outline.children, LineSafe e.rule e.token? := by
    intro e he
    obtain ⟨kind?, text, htellable, htoken⟩ := h.exists_tellable he
    rw [htoken]
    exact htellable.lineSafe text
  have hreread : ∀ e ∈ Outline.forestLayout 1 c.outline.children,
      rereadPlaced? e = some (e.mapToken recalled) := by
    intro e he
    obtain ⟨kind?, text, htellable, htoken⟩ := h.exists_tellable he
    rw [rereadPlaced?, Placed.mapToken, htoken, htellable.reread? text]
    rfl
  obtain ⟨root, rest, hlines, htitle, hspaces, hplaced⟩ :=
    nodeLines_written (hrule ▸ h.title) hsafe
  rw [List.filterMap_congr hreread, List.filterMap_eq_map'] at hplaced
  refine ⟨root, rest, ?_, hspaces, ?_⟩
  · rw [print, treeText_eq_of_kinds hterminal, hlines]
  · rw [Outline.layout_mapTokens, Outline.layout_eq_cons, List.map_cons, Placed.mapToken,
      h.token?_root, htitle, hplaced]
    rfl

/-- The dump is read, and only the tokens' texts are other than they were. What can stop the
reading is the number of rows that a table has room for. -/
theorem decode_own_print :
    (c.size ≤ NodeTable.capacity → ∃ read, decode (print .plain c) = .ok read ∧ read.Built ∧
      read.tree.outline = c.outline.mapTokens recalled) ∧
    (NodeTable.capacity < c.size → decode (print .plain c) = .error (.refused .full)) := by
  obtain ⟨root, rest, hlines, hspaces, hlayout⟩ := h.nodeLines_print
  have hlawful : Lawful rest := by
    have hchain : ((c.outline.mapTokens recalled).layout 0).IsChain Follows := by
      rw [Outline.layout_mapTokens, List.isChain_map]
      exact (Outline.isChain_layout 0 (Tree.tokensAtLeaves_outline h.kinds)).imp fun _ _ =>
        Outline.follows_mapToken
    rw [hlayout] at hchain
    exact lawful_of_isChain hspaces hchain
  have hsize : (nodeLines (print .plain c)).length = c.size := by
    have hlength := congrArg List.length hlayout
    rw [Outline.layout_mapTokens, List.length_map, Outline.length_layout, Tree.size_outline,
      List.length_cons, List.length_map] at hlength
    rw [hlines, List.length_cons, hlength]
  rw [← hsize]
  constructor
  · intro hroom
    obtain ⟨read, hread, o, hrows, -, hread_layout⟩ := decodeWith_of_lawful id hlines hlawful hroom
    refine ⟨read, hread, (built_of_decodeWith hlines hread).1, ?_⟩
    rw [NodeTable.outline_tree hrows]
    exact Outline.layout_injective (hread_layout.trans hlayout.symm)
  · exact decodeWith_of_overfull id hlines hlawful

end Presentable

end Dump

end TreeAccord
