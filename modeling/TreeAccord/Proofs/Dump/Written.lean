import TreeAccord.Proofs.Outline.Depths
import TreeAccord.Proofs.Tree.Built
import TreeAccord.Proofs.Dump.Rereading

/-! # The lines of a written tree

The dump of a table's tree has a line for each node, in order and indented to its depth. Read again,
each line says what its entry says; lines that are blank drop out. -/

namespace TreeAccord

open Outline (Placed Follows)

/-! ## Trees as lines -/

/-- Every node with a kind counts as a leaf of the grammar, and no other node does. -/
theorem NodeTable.terminal_eq {t : NodeTable} {i : Nat} (hi : i < t.size) :
    ∀ u ∈ (t.subtree i).preorder, u.terminal = u.kind?.isSome := by
  refine row_induction t (P := fun i => ∀ u ∈ (t.subtree i).preorder,
    u.terminal = u.kind?.isSome) ?_ hi
  intro i row hrow ih u hu
  rw [Tree.mem_preorder_iff, subtree_of_row hrow] at hu
  rcases hu with rfl | ⟨v, hv, hu⟩
  · exact (Option.isSome_map ..).symm
  · obtain ⟨c, hc, rfl⟩ := List.mem_map.mp hv
    exact ih c hc u hu

namespace Dump

/-- The line of a node below the root. -/
def placedText (e : Placed) : String := indentation e.depth ++ nodeEntry e.rule e.token?

theorem entry_eq_nodeEntry {l : Label} (h : l.kind?.isSome = true → l.terminal = true) :
    entry .plain l = nodeEntry l.rule (l.kind?.map fun kind => ⟨kind, l.text⟩) := by
  obtain ⟨row, rule, kind?, text, terminal⟩ := l
  cases kind? with
  | none => rfl
  | some kind =>
      obtain rfl : terminal = true := h rfl
      rfl

mutual
theorem nodeText_eq (depth : Nat) : ∀ t : Tree,
    (∀ u ∈ t.preorder, u.kind?.isSome = true → u.terminal = true) →
    nodeText .plain depth t = (t.outline.layout depth).map placedText
  | .node l cs, h => by
    have hroot : l.kind?.isSome = true → l.terminal = true := h (.node l cs) (Tree.mem_preorder_self _)
    rw [Tree.preorder] at h
    have hbelow := forestText_eq (depth + 1) cs fun u hu => h u (List.mem_cons_of_mem _ hu)
    rw [nodeText, hbelow, Tree.outline, Outline.layout, List.map_cons, placedText,
      entry_eq_nodeEntry hroot]

theorem forestText_eq (depth : Nat) : ∀ ts : List Tree,
    (∀ u ∈ Tree.forestPreorder ts, u.kind?.isSome = true → u.terminal = true) →
    forestText .plain depth ts =
      (Outline.forestLayout depth (Tree.forestOutline ts)).map placedText
  | [], _ => rfl
  | t :: ts, h => by
    rw [Tree.forestPreorder] at h
    have ht := nodeText_eq depth t fun u hu => h u (List.mem_append_left _ hu)
    have hts := forestText_eq depth ts fun u hu => h u (List.mem_append_right _ hu)
    rw [forestText, ht, hts, Tree.forestOutline, Outline.forestLayout, List.map_append]
end

/-- The lines of a tree whose kinds are all printed: its root's rule and the entries below. -/
theorem treeText_eq_of_kinds {t : Tree}
    (h : ∀ u ∈ t.preorder, u.kind?.isSome = true → u.terminal = true) :
    treeText .plain t =
      t.outline.rule :: (Outline.forestLayout 1 t.outline.children).map placedText := by
  obtain ⟨l, cs⟩ := t
  rw [Tree.preorder] at h
  have hbelow := forestText_eq 1 cs fun u hu => h u (List.mem_cons_of_mem _ hu)
  rw [treeText, Tree.children_node, hbelow]
  simp [Palette.plain, Tree.outline, Tree.rule, Outline.rule, Outline.children]

/-- The lines of a table's tree. -/
theorem treeText_eq {t : NodeTable} (h : 0 < t.size) :
    treeText .plain t.tree =
      t.tree.outline.rule ::
        (Outline.forestLayout 1 t.tree.outline.children).map placedText :=
  treeText_eq_of_kinds fun u hu hkind => (NodeTable.terminal_eq h u hu).trans hkind

/-! ## Lines as nodes -/

section

variable {line : Line} {depth : Nat} {cs : List Char}
  (hchars : line.chars = List.replicate (depth * indentWidth) ' ' ++ cs)
  (hhead : cs.head? ≠ some ' ')
include hchars hhead

theorem Line.spaces_of_indented : line.spaces = depth * indentWidth := by
  rw [Line.spaces, hchars, List.takeWhile_append_of_pos (by simp)]
  cases cs with
  | nil => simp
  | cons c cs =>
      rw [List.head?_cons, ne_eq, Option.some.injEq] at hhead
      simp [hhead]

theorem Line.depth_of_indented : line.depth = depth := by
  rw [Line.depth, Line.spaces_of_indented hchars hhead, indentWidth,
    Nat.mul_div_cancel _ Nat.two_pos]

/-- An entry is read as a node of the depth to which it is indented. -/
theorem Line.placed_of_indented :
    line.placed id = ⟨depth, (splitEntry cs).1, (splitEntry cs).2⟩ := by
  have hentry : line.entry = cs := by
    rw [← line.drop_spaces, Line.spaces_of_indented hchars hhead, hchars,
      List.drop_left' List.length_replicate]
  rw [Line.placed, storedRule_id, Line.depth_of_indented hchars hhead, Line.rule, Line.token?, hentry]

end

theorem toList_placedText (e : Placed) :
    (placedText e).toList =
      List.replicate (e.depth * indentWidth) ' ' ++ (nodeEntry e.rule e.token?).toList := by
  rw [placedText, String.toList_append, indentation, String.toList_ofList, indentWidth, Nat.mul_comm]

theorem dropReturn_indented (n : Nat) (cs : List Char) :
    dropReturn (List.replicate n ' ' ++ cs) = List.replicate n ' ' ++ dropReturn cs := by
  rcases List.eq_nil_or_concat cs with rfl | ⟨front, c, rfl⟩
  · cases n with
    | zero => rfl
    | succ n => simp [dropReturn, List.getLast?_replicate]
  · rw [List.concat_eq_append, dropReturn, dropReturn, ← List.append_assoc, List.getLast?_concat,
      List.getLast?_concat, List.dropLast_concat, List.dropLast_concat]
    split <;> simp

/-- What is read where the line of a node was written. -/
def rereadPlaced? (e : Placed) : Option Placed :=
  (reread? (nodeEntry e.rule e.token?).toList).map fun x => ⟨e.depth, x.1, x.2⟩

/-- Lines that are read where nodes were written are read at their depths. -/
theorem placed_of_written {es : List Placed} (h : ∀ e ∈ es, LineSafe e.rule e.token?)
    {rest : List Line}
    (hrest : rest.map Line.chars =
      (es.map fun e => dropReturn (placedText e).toList).filter fun cs => !cs.all Text.isBlank) :
    (∀ line ∈ rest, line.spaces = line.depth * indentWidth) ∧
      rest.map (Line.placed id) = es.filterMap rereadPlaced? := by
  induction es generalizing rest with
  | nil =>
      obtain rfl := List.map_eq_nil_iff.mp hrest
      exact ⟨by simp, rfl⟩
  | cons e es ih =>
      obtain ⟨he, hes⟩ := List.forall_mem_cons.mp h
      have hwritten : dropReturn (placedText e).toList =
          List.replicate (e.depth * indentWidth) ' ' ++
            dropReturn (nodeEntry e.rule e.token?).toList := by
        rw [toList_placedText, dropReturn_indented]
      -- the indentation is blank, so the entry alone decides whether the line drops out
      have hblank : (dropReturn (placedText e).toList).all Text.isBlank =
          (dropReturn (nodeEntry e.rule e.token?).toList).all Text.isBlank := by
        rw [hwritten, List.all_append]
        simp [Text.isBlank_space]
      rw [List.map_cons, List.filter_cons, hblank] at hrest
      rw [List.filterMap_cons, rereadPlaced?, reread?]
      cases hempty : (dropReturn (nodeEntry e.rule e.token?).toList).all Text.isBlank with
      | true =>
          rw [hempty] at hrest
          exact ih hes hrest
      | false =>
          rw [hempty] at hrest
          obtain ⟨line, others, rfl, hchars, hothers⟩ := List.map_eq_cons_iff.mp hrest
          obtain ⟨hspaces, hplaced⟩ := ih hes hothers
          rw [hwritten] at hchars
          have hhead := head?_dropReturn he.space
          refine ⟨List.forall_mem_cons.mpr ⟨?_, hspaces⟩, ?_⟩
          · rw [Line.depth_of_indented hchars hhead]
            exact Line.spaces_of_indented hchars hhead
          · rw [List.map_cons, Line.placed_of_indented hchars hhead, hplaced]
            rfl

/-! ## Lawful lines -/

theorem offence?_eq_none_of_follows {rename : String → String} {a : Placed} {line : Line}
    (hspaces : line.spaces = line.depth * indentWidth) (h : Follows a (line.placed rename)) :
    offence? ⟨a.depth, a.token?.isSome⟩ line = none := by
  obtain ⟨hpos, hle, hleaf⟩ := h
  change 0 < line.depth at hpos
  change line.depth ≤ a.depth + 1 at hle
  change _ → line.depth ≤ a.depth at hleaf
  have hhalf : line.spaces / 2 = line.depth := rfl
  unfold indentWidth at hspaces
  unfold offence?
  dsimp only
  rw [if_neg (by omega), if_neg (by omega), hhalf, if_neg (by omega), if_neg]
  rintro ⟨hdepth, htoken⟩
  have := hleaf htoken
  omega

/-- Lines that may follow one another are lawful. -/
theorem lawful_of_isChain {rename : String → String} {name : String} {rest : List Line}
    (hspaces : ∀ line ∈ rest, line.spaces = line.depth * indentWidth)
    (h : ((⟨0, name, none⟩ : Placed) :: rest.map (Line.placed rename)).IsChain Follows) :
    Lawful rest := by
  induction rest using List.reverseRecOn with
  | nil => exact .nil
  | append_singleton earlier line ih =>
      rw [List.map_append, ← List.cons_append, List.isChain_append] at h
      obtain ⟨hearlier, -, hlast⟩ := h
      have hline := hspaces line (by simp)
      apply Lawful.concat
      · exact ih (fun l hl => hspaces l (List.mem_append_left _ hl)) hearlier
      rcases List.eq_nil_or_concat earlier with rfl | ⟨before, prev, rfl⟩
      · exact offence?_eq_none_of_follows hline (hlast _ rfl _ rfl)
      · rw [List.concat_eq_append, List.map_append, ← List.cons_append] at hlast
        rw [List.concat_eq_append, standingAfter_concat]
        exact offence?_eq_none_of_follows hline (hlast _ List.getLast?_concat _ rfl)

/-! ## The lines of a dump -/

/-- The name of a root that can be read again. -/
structure TitleSafe (rule : String) : Prop where
  nonempty : rule ≠ ""
  trimmed : Text.trim rule.toList = rule.toList
  lineFeed : '\n' ∉ rule.toList

theorem TitleSafe.endsSolid {rule : String} (h : TitleSafe rule) : EndsSolid rule.toList := by
  rw [← h.trimmed]
  apply endsSolid_trimEnd
  rw [← Text.trim, h.trimmed]
  simpa using h.nonempty

theorem lineFeed_not_mem_placedText {e : Placed} (h : LineSafe e.rule e.token?) :
    '\n' ∉ (placedText e).toList := by
  rw [toList_placedText, List.mem_append]
  rintro (hspace | hentry)
  · exact absurd (List.eq_of_mem_replicate hspace) (by decide)
  · exact h.lineFeed hentry

section

variable {title : String} (htitle : TitleSafe title) {es : List Placed}
  (hsafe : ∀ e ∈ es, LineSafe e.rule e.token?)
include htitle hsafe

theorem lineFeed_not_mem_written : ∀ line ∈ title :: es.map placedText, '\n' ∉ line.toList := by
  rw [List.forall_mem_cons, List.forall_mem_map]
  exact ⟨htitle.lineFeed, fun e he => lineFeed_not_mem_placedText (hsafe e he)⟩

/-- What is read where a title and nodes below it were written. -/
theorem nodeLines_written :
    ∃ root rest, nodeLines (Text.concat ((title :: es.map placedText).map fun line => line ++ "\n")) =
        root :: rest ∧
      root.title = title ∧
      (∀ line ∈ rest, line.spaces = line.depth * indentWidth) ∧
      rest.map (Line.placed id) = es.filterMap rereadPlaced? := by
  have hchars := map_chars_nodeLines_written (lineFeed_not_mem_written htitle hsafe)
  have hroot := htitle.endsSolid
  rw [List.map_cons (f := fun line : String => dropReturn line.toList), List.map_map,
    hroot.dropReturn_eq, List.filter_cons_of_pos (by rw [hroot.not_blank]; rfl),
    List.map_eq_cons_iff] at hchars
  obtain ⟨root, rest, hlines, hchars, hrest⟩ := hchars
  refine ⟨root, rest, hlines, ?_, placed_of_written hsafe hrest⟩
  rw [Line.title, hchars, htitle.trimmed, String.ofList_toList]

end

section

variable {t : NodeTable} (hsize : 0 < t.size) (htitle : TitleSafe t.tree.outline.rule)
  (hreadable : ∀ e ∈ Outline.forestLayout 1 t.tree.outline.children, Readable e.rule e.token?)
include hsize htitle hreadable

theorem lineFeed_not_mem_treeText : ∀ line ∈ treeText .plain t.tree, '\n' ∉ line.toList := by
  rw [treeText_eq hsize]
  exact lineFeed_not_mem_written htitle fun e he => (hreadable e he).lineSafe

/-- The lines of the dump, as they are read. -/
theorem nodeLines_print_readable :
    ∃ root rest, nodeLines (print .plain t.tree) = root :: rest ∧
      root.title = t.tree.outline.rule ∧
      (∀ line ∈ rest, line.spaces = line.depth * indentWidth) ∧
      rest.map (Line.placed id) =
        (Outline.forestLayout 1 t.tree.outline.children).filterMap rereadPlaced? := by
  rw [print, treeText_eq hsize]
  exact nodeLines_written htitle fun e he => (hreadable e he).lineSafe

end

end Dump

end TreeAccord
