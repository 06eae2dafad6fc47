import TreeAccord.Proofs.Dump.Written

/-! # Reading what was written

The dump of a built tree is read as the same outline, whatever order its nodes were added in; only
the texts of ordinary tokens come back with escapes. -/

namespace TreeAccord

open Outline (Placed Follows)

namespace Dump

/-! ## The round trip -/

/-- An outline whose dump can be read again. -/
structure DumpSafe (o : Outline) : Prop where
  nonempty : o.rule ≠ ""
  trimmed : Text.trim o.rule.toList = o.rule.toList
  lineFeed : '\n' ∉ o.rule.toList
  below : ∀ e ∈ Outline.forestLayout 1 o.children, NodeSafe e.rule e.token?

theorem DumpSafe.titleSafe {o : Outline} (h : DumpSafe o) : TitleSafe o.rule :=
  ⟨h.nonempty, h.trimmed, h.lineFeed⟩

/-- The lines of the dump of a safe outline, as they are read. -/
theorem nodeLines_print {t : NodeTable} (hsize : 0 < t.size)
    (hsafe : DumpSafe t.tree.outline) :
    ∃ root rest, nodeLines (print .plain t.tree) = root :: rest ∧
      root.title = t.tree.outline.rule ∧
      (∀ line ∈ rest, line.spaces = line.depth * indentWidth) ∧
      rest.map (Line.placed id) =
        (Outline.forestLayout 1 t.tree.outline.children).map (Placed.mapToken readBack) := by
  obtain ⟨root, rest, hlines, htitle, hspaces, hplaced⟩ := nodeLines_print_readable hsize
    hsafe.titleSafe fun e he => .safe (hsafe.below e he)
  refine ⟨root, rest, hlines, htitle, hspaces, ?_⟩
  rw [hplaced, ← List.filterMap_eq_map']
  refine List.filterMap_congr fun e he => ?_
  rw [rereadPlaced?, reread?_nodeEntry (hsafe.below e he)]
  rfl

/-- The dump of a built tree is read as a tree of the same shape with the same rules, and with
tokens of the same kinds in the same places. White space keeps its text, and the text of any other
token is the one that was written. -/
theorem decode_print {t : NodeTable} (hbuilt : t.Built) (hsafe : DumpSafe t.tree.outline) :
    ∃ read, decode (print .plain t.tree) = .ok read ∧
      read.tree.outline = t.tree.outline.mapTokens readBack := by
  obtain ⟨root, rest, hlines, htitle, hspaces, hplaced⟩ := nodeLines_print hbuilt.size_pos hsafe
  have hlayout : (t.tree.outline.mapTokens readBack).layout 0 =
      ⟨0, root.title, none⟩ :: rest.map (Line.placed id) := by
    have hnone := hbuilt.token?_root
    rw [Outline.layout_mapTokens, htitle, hplaced]
    generalize t.tree.outline = o at hnone ⊢
    obtain ⟨rule, token?, children⟩ := o
    obtain rfl : token? = none := hnone
    rfl
  have hlawful : Lawful rest := by
    have hchain : ((t.tree.outline.mapTokens readBack).layout 0).IsChain Follows := by
      rw [Outline.layout_mapTokens, List.isChain_map]
      exact (Outline.isChain_layout 0 hbuilt.tokensAtLeaves).imp fun _ _ =>
        Outline.follows_mapToken
    rw [hlayout] at hchain
    exact lawful_of_isChain hspaces hchain
  have hroom : (nodeLines (print .plain t.tree)).length ≤ NodeTable.capacity := by
    have hlength := congrArg List.length hlayout
    rw [Outline.layout_mapTokens, List.length_map, Outline.length_layout, Tree.size_outline,
      List.length_cons, List.length_map] at hlength
    rw [hlines, List.length_cons, ← hlength]
    exact Nat.le_trans hbuilt.size_tree_le hbuilt.size_le
  obtain ⟨read, hread, o, hrows, -, hread_layout⟩ := decodeWith_of_lawful id hlines hlawful hroom
  refine ⟨read, hread, ?_⟩
  rw [NodeTable.outline_tree hrows]
  exact Outline.layout_injective (hread_layout.trans hlayout.symm)

/-! ## A table out of order -/

/-- The last row is printed before the third. -/
def scatteredRows : Array Row :=
  #[⟨"R", none, none, [1, 2]⟩, ⟨"A", none, some 0, [3]⟩, ⟨"B", some ⟨"K", "x\ny"⟩, some 0, []⟩,
    ⟨whiteSpaceRule, some ⟨whiteSpaceRule, " "⟩, some 1, []⟩]

theorem scatteredRows_forward :
    ∀ i : Fin scatteredRows.size, ∀ c ∈ scatteredRows[i].children,
      i < c ∧ c < scatteredRows.size := by
  decide

def scatteredTable : NodeTable where
  rows := scatteredRows
  forward := by
    intro i row hrow c hc
    obtain ⟨hi, rfl⟩ := Array.getElem?_eq_some_iff.mp hrow
    exact scatteredRows_forward ⟨i, hi⟩ c hc

def scatteredOutline : Outline :=
  .node "R" none [.node "A" none [.leaf whiteSpaceRule (some ⟨whiteSpaceRule, " "⟩)],
    .leaf "B" (some ⟨"K", "x\ny"⟩)]

theorem outline_scatteredTable : scatteredTable.tree.outline = scatteredOutline := by
  have hroot : scatteredTable.rows[0]? = some ⟨"R", none, none, [1, 2]⟩ := rfl
  have hinner : scatteredTable.rows[1]? = some ⟨"A", none, some 0, [3]⟩ := rfl
  have htoken : scatteredTable.rows[2]? = some ⟨"B", some ⟨"K", "x\ny"⟩, some 0, []⟩ := rfl
  have hspace : scatteredTable.rows[3]? =
    some ⟨whiteSpaceRule, some ⟨whiteSpaceRule, " "⟩, some 1, []⟩ := rfl
  rw [NodeTable.tree, NodeTable.outline_of_row hroot, List.map_cons, List.map_singleton,
    NodeTable.outline_of_row hinner, List.map_singleton, NodeTable.outline_of_row htoken,
    NodeTable.outline_of_row hspace]
  rfl

theorem built_scatteredTable : scatteredTable.Built := by
  have hsingle : (NodeTable.singleton "R").rows[0]? = some ⟨"R", none, none, []⟩ := rfl
  obtain ⟨t, ht, hrows⟩ := NodeTable.exists_push_eq_ok hsingle rfl (by decide) "A" none
  have hfirst : t.rows[0]? = some ⟨"R", none, none, [1]⟩ := by
    rw [hrows]
    rfl
  have hsize : t.size < NodeTable.capacity := by
    rw [NodeTable.size, hrows]
    decide
  obtain ⟨u, hu, hrows'⟩ := NodeTable.exists_push_eq_ok hfirst rfl hsize "B"
    (some ⟨"K", "x\ny"⟩)
  refine .push (.push (.push (.singleton "R") ht) hu)
    ((NodeTable.push_eq_ok_iff u scatteredTable 1 whiteSpaceRule
      (some ⟨whiteSpaceRule, " "⟩)).mpr ⟨⟨"A", none, some 0, []⟩, ?_, rfl, ?_, ?_⟩)
  · rw [hrows', hrows]
    rfl
  · rw [NodeTable.size, hrows', hrows]
    decide
  · rw [hrows', hrows]
    rfl

theorem dumpSafe_scatteredOutline : DumpSafe scatteredOutline where
  nonempty := by decide
  trimmed := by decide
  lineFeed := by decide
  below := by
    intro e he
    simp only [scatteredOutline, Outline.children, Outline.leaf, Outline.forestLayout,
      Outline.layout, List.append_nil, List.cons_append, List.nil_append, List.mem_cons,
      List.not_mem_nil, or_false] at he
    rcases he with rfl | rfl | rfl
    · exact .bare ⟨by decide, by decide, by decide, by decide, by decide⟩ (by decide) (by decide)
    · exact .whiteSpace (by decide)
    · exact .ordinary ⟨by decide, by decide, by decide, by decide, by decide⟩ (by decide)
        (by decide) (by decide) (by decide) (by decide)

/-- The line break comes back as an escape, the blank as it was. -/
theorem decode_print_scatteredTable :
    scatteredTable.Built ∧ DumpSafe scatteredTable.tree.outline ∧
      ∃ read, decode (print .plain scatteredTable.tree) = .ok read ∧
        read.tree.outline = .node "R" none
          [.node "A" none [.leaf whiteSpaceRule (some ⟨whiteSpaceRule, " "⟩)],
            .leaf "B" (some ⟨"K", "x\\ny"⟩)] := by
  have hsafe : DumpSafe scatteredTable.tree.outline := by
    rw [outline_scatteredTable]
    exact dumpSafe_scatteredOutline
  obtain ⟨read, hread, houtline⟩ := decode_print built_scatteredTable hsafe
  refine ⟨built_scatteredTable, hsafe, read, hread, ?_⟩
  rw [houtline, outline_scatteredTable]
  have hescape : escape "x\ny" = "x\\ny" := by decide
  simp [scatteredOutline, Outline.leaf, Outline.mapTokens, Outline.forestMapTokens, readBack,
    hescape, whiteSpaceRule]

end Dump

end TreeAccord
