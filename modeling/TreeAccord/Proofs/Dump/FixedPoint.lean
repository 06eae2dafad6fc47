import TreeAccord.Proofs.Dump.Indentation
import TreeAccord.Proofs.Dump.Written
import Mathlib

/-! # Printing what was printed

A text that is read and printed is read again, whatever it was. The second print is the first one, as
long as each of its lines says the same when it is read; this fails for a token whose kind is that of
white space or of an error element, but which stands in the line of another rule. -/

namespace TreeAccord

open Outline (Placed Follows KeepsPlace)

namespace Dump

/-! ## What a text can say -/

/-- What a line of a text says can be read from an entry. -/
theorem readable_of_mem_nodeLines {source : String} {line : Line} (h : line ∈ nodeLines source) :
    Readable line.rule line.token? := by
  obtain ⟨hfeeds, hfilled⟩ := chars_of_mem_nodeLines h
  rw [line.entry_eq] at hfeeds hfilled
  refine readable_splitEntry (fun hfeed => hfeeds (List.mem_append_right _ hfeed)) ?_ ?_
  · have hhead := List.head?_dropWhile_not (· == ' ') line.chars
    intro hspace
    rw [← Line.entry, hspace] at hhead
    exact absurd hhead (by decide)
  · rw [List.all_append] at hfilled
    simpa [Text.isBlank_space] using hfilled

theorem titleSafe_of_mem_nodeLines {source : String} {line : Line} (h : line ∈ nodeLines source) :
    TitleSafe line.title := by
  obtain ⟨hfeeds, hfilled⟩ := chars_of_mem_nodeLines h
  refine ⟨?_, ?_, ?_⟩
  · intro hnil
    have hempty := congrArg String.toList hnil
    rw [Line.title, String.toList_ofList] at hempty
    exact Text.trim_ne_nil hfilled hempty
  · rw [Line.title, String.toList_ofList, Text.trim_trim]
  · rw [Line.title, String.toList_ofList]
    exact fun hfeed => hfeeds (Text.mem_of_mem_trim hfeed)

/-- What a table says that was read from a text. -/
structure ReadTable (t : NodeTable) : Prop where
  built : t.Built
  title : TitleSafe t.tree.outline.rule
  readable : ∀ e ∈ Outline.forestLayout 1 t.tree.outline.children, Readable e.rule e.token?

theorem readTable_of_decode {source : String} {t : NodeTable} (h : decode source = .ok t) :
    ReadTable t := by
  cases hlines : nodeLines source with
  | nil =>
      rw [decode, decodeWith_of_blank id hlines] at h
      cases h
  | cons root rest =>
      obtain ⟨hbuilt, hcount⟩ := built_of_decodeWith hlines h
      have hlayout := layout_of_decodeWith id hlines (hcount ▸ hbuilt.size_le) h
      rw [Outline.layout_eq_cons, List.cons.injEq, Placed.mk.injEq] at hlayout
      obtain ⟨⟨-, hrule, -⟩, hbelow⟩ := hlayout
      have hmem : ∀ line ∈ root :: rest, line ∈ nodeLines source := by simp [hlines]
      refine ⟨hbuilt, ?_, ?_⟩
      · rw [hrule]
        exact titleSafe_of_mem_nodeLines (hmem root List.mem_cons_self)
      · rw [hbelow, List.forall_mem_map]
        intro line hline
        rw [Line.placed, storedRule_id]
        exact readable_of_mem_nodeLines (hmem line (List.mem_cons_of_mem root hline))

/-! ## Reading the print -/

/-- A node without a token is read in its place, and no line turns into a token's. -/
theorem keepsPlace_of_reread {e : Placed} (h : Readable e.rule e.token?) :
    (∀ e', rereadPlaced? e = some e' → KeepsPlace e e') ∧
      (rereadPlaced? e = none → e.token?.isSome = true) := by
  obtain ⟨depth, rule, token?⟩ := e
  cases token? with
  | some token =>
      refine ⟨fun e' he => ⟨?_, fun _ => rfl⟩, fun _ => rfl⟩
      obtain ⟨x, -, rfl⟩ := Option.map_eq_some_iff.mp he
      rfl
  | none =>
      have hbare : rereadPlaced? ⟨depth, rule, none⟩ = some ⟨depth, rule, none⟩ := by
        rw [rereadPlaced?, h.reread?_bare]
        rfl
      rw [hbare]
      refine ⟨fun e' he => ?_, fun he => by cases he⟩
      obtain rfl := Option.some.inj he
      exact ⟨rfl, id⟩

namespace ReadTable

variable {t : NodeTable} (h : ReadTable t) {rest : List Line}
include h

/-- Whatever drops out of the print, the lines that are left may follow one another. -/
theorem lawful_reread (hspaces : ∀ line ∈ rest, line.spaces = line.depth * indentWidth)
    (hplaced : rest.map (Line.placed id) =
      (Outline.forestLayout 1 t.tree.outline.children).filterMap rereadPlaced?) :
    Lawful rest := by
  have hwritten := Outline.isChain_layout 0 h.built.tokensAtLeaves
  rw [Outline.layout_eq_cons, h.built.token?_root] at hwritten
  have hchain : ((⟨0, t.tree.outline.rule, none⟩ : Placed) :: rest.map (Line.placed id)).IsChain
      Follows := by
    rw [hplaced]
    exact Outline.isChain_filterMap (fun e he => (keepsPlace_of_reread (h.readable e he)).1)
      (fun e he => (keepsPlace_of_reread (h.readable e he)).2) ⟨rfl, id⟩ hwritten
  exact lawful_of_isChain hspaces hchain

theorem length_reread_lt
    (hplaced : rest.map (Line.placed id) =
      (Outline.forestLayout 1 t.tree.outline.children).filterMap rereadPlaced?) :
    rest.length < NodeTable.capacity := by
  have hlength := congrArg List.length hplaced
  have hle := List.length_filterMap_le rereadPlaced?
    (Outline.forestLayout 1 t.tree.outline.children)
  have hsize : t.tree.size = (Outline.forestLayout 1 t.tree.outline.children).length + 1 := by
    rw [← Tree.size_outline, ← Outline.length_layout 0, Outline.layout_eq_cons, List.length_cons]
  rw [List.length_map] at hlength
  have hbound := Nat.le_trans h.built.size_tree_le h.built.size_le
  omega

/-- The print is read, each line as it says. -/
theorem exists_decode_print :
    ∃ u, decode (print .plain t.tree) = .ok u ∧
      u.tree.outline.rule = t.tree.outline.rule ∧
      Outline.forestLayout 1 u.tree.outline.children =
        (Outline.forestLayout 1 t.tree.outline.children).filterMap rereadPlaced? := by
  obtain ⟨root, rest, hlines, htitle, hspaces, hplaced⟩ :=
    nodeLines_print_readable h.built.size_pos h.title h.readable
  have hroom : (nodeLines (print .plain t.tree)).length ≤ NodeTable.capacity := by
    rw [hlines, List.length_cons]
    exact h.length_reread_lt hplaced
  obtain ⟨u, hread, -⟩ := decodeWith_of_lawful id hlines (h.lawful_reread hspaces hplaced) hroom
  have hlayout := layout_of_decodeWith id hlines hroom hread
  rw [Outline.layout_eq_cons, List.cons.injEq, Placed.mk.injEq, hplaced] at hlayout
  obtain ⟨⟨-, hrule, -⟩, hbelow⟩ := hlayout
  exact ⟨u, hread, hrule.trans htitle, hbelow⟩

end ReadTable

/-! ## The second print -/

theorem placedText_eq_iff (depth : Nat) (rule rule' : String) (token? token?' : Option Token) :
    placedText ⟨depth, rule', token?'⟩ = placedText ⟨depth, rule, token?⟩ ↔
      nodeEntry rule' token?' = nodeEntry rule token? := by
  rw [← String.toList_inj, toList_placedText, toList_placedText, List.append_cancel_left_eq,
    String.toList_inj]

/-- The lines are the same when they are written again if each of them is. -/
theorem map_placedText_filterMap_eq_iff {es : List Placed}
    (h : ∀ e ∈ es, Readable e.rule e.token?) :
    (es.filterMap rereadPlaced?).map placedText = es.map placedText ↔
      ∀ e ∈ es, Steady e.rule e.token? := by
  induction es with
  | nil => simp
  | cons e es ih =>
      obtain ⟨depth, rule, token?⟩ := e
      obtain ⟨hreadable, hothers⟩ := List.forall_mem_cons.mp h
      rw [List.forall_mem_cons, steady_iff hreadable, List.map_cons]
      cases hreread : reread? (nodeEntry rule token?).toList with
      | none =>
          have hnone : rereadPlaced? ⟨depth, rule, token?⟩ = none := by
            rw [rereadPlaced?, hreread]
            rfl
          rw [List.filterMap_cons_none hnone]
          constructor
          · intro heq
            have hlength := congrArg List.length heq
            have hle := List.length_filterMap_le rereadPlaced? es
            rw [List.length_map, List.length_cons, List.length_map] at hlength
            omega
          · rintro ⟨⟨rule', token?', hsome, -⟩, -⟩
            cases hsome
      | some x =>
          obtain ⟨rule', token?'⟩ := x
          have hsome : rereadPlaced? ⟨depth, rule, token?⟩ = some ⟨depth, rule', token?'⟩ := by
            rw [rereadPlaced?, hreread]
            rfl
          rw [List.filterMap_cons_some hsome, List.map_cons, List.cons.injEq, placedText_eq_iff,
            ih hothers]
          simp

/-- For every text that is read, the print of the tree is read too. The tree that it gives is printed
in the same way exactly if each entry of the first print could have been written for a node that is
read as it was. This holds if kinds of sentinels stand only in the lines of these sentinels. -/
theorem print_reread {source : String} {t : NodeTable} (h : decode source = .ok t) :
    ∃ u, decode (print .plain t.tree) = .ok u ∧
      (print .plain u.tree = print .plain t.tree ↔
        ∀ e ∈ Outline.forestLayout 1 t.tree.outline.children, Steady e.rule e.token?) ∧
      ((∀ e ∈ Outline.forestLayout 1 t.tree.outline.children, KindAtHome e.rule e.token?) →
        print .plain u.tree = print .plain t.tree) := by
  have ht := readTable_of_decode h
  obtain ⟨u, hread, hrule, hbelow⟩ := ht.exists_decode_print
  have hu := readTable_of_decode hread
  have hsteady : print .plain u.tree = print .plain t.tree ↔
      ∀ e ∈ Outline.forestLayout 1 t.tree.outline.children, Steady e.rule e.token? := by
    rw [print, print, concat_lineFeeds_inj
      (lineFeed_not_mem_treeText hu.built.size_pos hu.title hu.readable)
      (lineFeed_not_mem_treeText ht.built.size_pos ht.title ht.readable),
      treeText_eq hu.built.size_pos, treeText_eq ht.built.size_pos, hrule, hbelow,
      ← map_placedText_filterMap_eq_iff ht.readable]
    simp
  refine ⟨u, hread, hsteady, fun hhome => hsteady.mpr fun e he => ?_⟩
  exact ⟨e.rule, e.token?, (ht.readable e he).nodeSafe (hhome e he), rfl⟩

/-! ### Lines that come to rest, and one that does not -/

def looseTable : NodeTable where
  rows := #[⟨"R", none, none, [1, 2, 3]⟩, ⟨"A", some ⟨"K", "x\ty"⟩, some 0, []⟩,
    ⟨whiteSpaceRule, some ⟨whiteSpaceRule, " "⟩, some 0, []⟩,
    ⟨errorRule, some ⟨errorRule, ""⟩, some 0, []⟩]
  forward := NodeTable.forward_of_forall (by decide)

/-- A missing parenthesis, a tab and the message of an error are gone after one print, and nothing
changes after that. -/
theorem print_reread_looseTable :
    decode "R\n  A(K)('x\ty'\n  PsiWhiteSpace( )\n  PsiErrorElement:e\n" = .ok looseTable ∧
      print .plain looseTable.tree =
        "R\n  A(K)('x\\ty')\n  PsiWhiteSpace( )\n  PsiErrorElement\n" ∧
      ∃ u, decode (print .plain looseTable.tree) = .ok u ∧
        print .plain u.tree = print .plain looseTable.tree := by
  have hread : decode "R\n  A(K)('x\ty'\n  PsiWhiteSpace( )\n  PsiErrorElement:e\n" =
    .ok looseTable := rfl
  have hlines : Outline.forestLayout 1 looseTable.tree.outline.children =
      [⟨1, "A", some ⟨"K", "x\ty"⟩⟩, ⟨1, whiteSpaceRule, some ⟨whiteSpaceRule, " "⟩⟩,
        ⟨1, errorRule, some ⟨errorRule, ""⟩⟩] := by cbv
  obtain ⟨u, hu, -, hfixed⟩ := print_reread hread
  refine ⟨hread, by cbv, u, hu, hfixed ?_⟩
  rw [hlines]
  decide

def strayTable : NodeTable where
  rows := #[⟨"Root", none, none, [1]⟩, ⟨"Foo", some ⟨whiteSpaceRule, "x"⟩, some 0, []⟩]
  forward := NodeTable.forward_of_forall (by decide)

/-- What the print of the line is taken for. -/
def misreadTable : NodeTable where
  rows := #[⟨"Root", none, none, [1]⟩, ⟨"Foo", some ⟨"x", ""⟩, some 0, []⟩]
  forward := NodeTable.forward_of_forall (by decide)

/-- The line is read as a token of the kind of white space and printed as white space is, with its rule
before its text. In the print the text stands where the kind of a token is read, and so the second
print differs from the first. -/
theorem print_misread_strayTable :
    decode "Root\n  Foo(PsiWhiteSpace)('x')\n" = .ok strayTable ∧
      print .plain strayTable.tree = "Root\n  Foo(x)\n" ∧
      decode (print .plain strayTable.tree) = .ok misreadTable ∧
      print .plain misreadTable.tree = "Root\n  Foo(x)('')\n" ∧
      print .plain misreadTable.tree ≠ print .plain strayTable.tree := by
  have hfirst : print .plain strayTable.tree = "Root\n  Foo(x)\n" := by cbv
  have hsecond : print .plain misreadTable.tree = "Root\n  Foo(x)('')\n" := by cbv
  have hread : decode "Root\n  Foo(x)\n" = .ok misreadTable := rfl
  rw [hfirst, hsecond]
  exact ⟨rfl, rfl, hread, rfl, by decide⟩

end Dump

end TreeAccord
