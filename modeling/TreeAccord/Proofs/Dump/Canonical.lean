import TreeAccord.Proofs.Dump.Indentation
import TreeAccord.Proofs.Dump.RoundTrip

/-! # Texts that are printed as they were read

In a canonical text the lines are indented level by level, and none of them says anything that is
dropped or changed between reading and printing. Such a text is read, and the print of its tree is the
text itself. The trees that can be read again are printed as canonical texts. -/

namespace TreeAccord

open Outline (Placed Follows)

namespace Dump

/-! ## Canonical texts -/

/-- What a canonical line says after its indentation, and whether it is the line of a token. As parts
of a line, none of the texts holds a line feed. -/
inductive CanonicalEntry : Bool → String → Prop where
  | bare {rule : String} (name : NameSafe rule) (nonempty : rule ≠ "")
      (trimmed : Text.trimEnd rule.toList = rule.toList) : CanonicalEntry false rule
  | whiteSpace {payload : String} (lineFeed : '\n' ∉ payload.toList) :
      CanonicalEntry true (whiteSpaceRule ++ "(" ++ payload ++ ")")
  | error : CanonicalEntry true errorRule
  | ordinary {rule kind text : String} (name : NameSafe rule) (closing : ')' ∉ kind.toList)
      (kindFeed : '\n' ∉ kind.toList) (sentinel : isSentinel kind = false)
      (tab : '\t' ∉ text.toList) (carriage : '\r' ∉ text.toList) (textFeed : '\n' ∉ text.toList)
      (left : kind = "LPAR" → text = "(") (right : kind = "RPAR" → text = ")") :
      CanonicalEntry true (rule ++ "(" ++ kind ++ ")('" ++ text ++ "')")

/-- The lines below a line of depth `previous`, which is that of a token if `leaf` says so. -/
inductive CanonicalLines : (previous : Nat) → (leaf : Bool) → List String → Prop where
  | nil {previous : Nat} {leaf : Bool} : CanonicalLines previous leaf []
  | cons {previous depth : Nat} {leaf token : Bool} {entry : String} {later : List String}
      (shape : CanonicalEntry token entry) (below : 1 ≤ depth) (step : depth ≤ previous + 1)
      (beside : leaf = true → depth ≤ previous) (rest : CanonicalLines depth token later) :
      CanonicalLines previous leaf ((indentation depth ++ entry) :: later)

/-- A title and the lines below it, each ended by one line feed. -/
inductive Canonical : String → Prop where
  | written {title : String} {later : List String} (root : TitleSafe title)
      (rest : CanonicalLines 0 false later) :
      Canonical (Text.concat ((title :: later).map fun line => line ++ "\n"))

/-! ## Canonical entries as written ones -/

theorem nodeEntry_whiteSpaceRule (text : String) :
    nodeEntry whiteSpaceRule (some ⟨whiteSpaceRule, text⟩) =
      whiteSpaceRule ++ "(" ++ text ++ ")" := by
  rw [← String.toList_inj, nodeEntry_whiteSpace]
  simp

theorem nodeEntry_of_not_isSentinel {kind : String} (h : isSentinel kind = false)
    (rule text : String) :
    nodeEntry rule (some ⟨kind, text⟩) = rule ++ "(" ++ kind ++ ")('" ++ escape text ++ "')" := by
  rw [← String.toList_inj, nodeEntry_ordinary h]
  simp

theorem canonicalEntry_nodeEntry {rule : String} {token? : Option Token}
    (h : NodeSafe rule token?) : CanonicalEntry token?.isSome (nodeEntry rule token?) := by
  cases h with
  | bare name nonempty trimmed =>
      rw [nodeEntry_none]
      exact .bare name nonempty trimmed
  | whiteSpace lineFeed =>
      rw [nodeEntry_whiteSpaceRule]
      exact .whiteSpace lineFeed
  | error =>
      rw [nodeEntry_error]
      exact .error
  | @ordinary rule kind text name closing lineFeed sentinel left right =>
      rw [nodeEntry_of_not_isSentinel sentinel]
      refine .ordinary name closing lineFeed sentinel (not_mem_escape (by decide))
        (not_mem_escape (by decide)) (lineFeed_not_mem_escape text) ?_ ?_
      · intro hleft
        rw [left hleft]
        decide
      · intro hright
        rw [right hright]
        decide

/-! ## The nodes of a canonical text -/

/-- A node that is read as it is where it was written. -/
structure Restored (rule : String) (token? : Option Token) : Prop where
  safe : NodeSafe rule token?
  fixed : token?.map readBack = token?

theorem rereadPlaced?_of_restored {e : Placed} (h : Restored e.rule e.token?) :
    rereadPlaced? e = some e := by
  rw [rereadPlaced?, reread?_nodeEntry h.safe, h.fixed]
  rfl

theorem filterMap_rereadPlaced? {es : List Placed} (h : ∀ e ∈ es, Restored e.rule e.token?) :
    es.filterMap rereadPlaced? = es := by
  rw [List.filterMap_congr fun e he => rereadPlaced?_of_restored (h e he), List.filterMap_some]

/-- An ordinary token is restored if nothing in its text is escaped. -/
theorem restored_ordinary {rule kind text : String} (safe : NodeSafe rule (some ⟨kind, text⟩))
    (written : escape text = text) : Restored rule (some ⟨kind, text⟩) := by
  refine ⟨safe, ?_⟩
  rw [Option.map_some, readBack, written, ite_self]

theorem CanonicalEntry.exists_restored {token : Bool} {entry : String}
    (h : CanonicalEntry token entry) :
    ∃ rule token?, Restored rule token? ∧ token?.isSome = token ∧ nodeEntry rule token? = entry := by
  cases h with
  | bare name nonempty trimmed =>
      exact ⟨entry, none, ⟨.bare name nonempty trimmed, rfl⟩, rfl, nodeEntry_none entry⟩
  | @whiteSpace payload lineFeed =>
      refine ⟨whiteSpaceRule, some ⟨whiteSpaceRule, payload⟩, ⟨.whiteSpace lineFeed, ?_⟩, rfl, ?_⟩
      · simp [readBack]
      · exact nodeEntry_whiteSpaceRule payload
  | error =>
      exact ⟨errorRule, some ⟨errorRule, ""⟩, ⟨.error, rfl⟩, rfl, nodeEntry_error errorRule ""⟩
  | @ordinary rule kind text name closing kindFeed sentinel tab carriage textFeed left right =>
      have hescape : escape text = text := escape_eq_self fun c hc =>
        escapeChar_of_ne (ne_of_mem_of_not_mem hc textFeed) (ne_of_mem_of_not_mem hc carriage)
          (ne_of_mem_of_not_mem hc tab)
      refine ⟨rule, some ⟨kind, text⟩,
        restored_ordinary (.ordinary name closing kindFeed sentinel left right) hescape, rfl, ?_⟩
      rw [nodeEntry_of_not_isSentinel sentinel, hescape]

/-- Canonical lines are those of nodes that are restored, each of which may follow the one before. -/
theorem CanonicalLines.exists_placed {previous : Nat} {leaf : Bool} {later : List String}
    (h : CanonicalLines previous leaf later) :
    ∃ es : List Placed, es.map placedText = later ∧ (∀ e ∈ es, Restored e.rule e.token?) ∧
      ∀ before : Placed, before.depth = previous → before.token?.isSome = leaf →
        (before :: es).IsChain Follows := by
  induction h with
  | nil => exact ⟨[], rfl, by simp, fun before _ _ => .singleton before⟩
  | @cons previous depth leaf token entry later shape below step beside rest ih =>
      obtain ⟨rule, token?, hrestored, htoken, rfl⟩ := shape.exists_restored
      obtain ⟨es, rfl, hes, hchain⟩ := ih
      refine ⟨⟨depth, rule, token?⟩ :: es, rfl, List.forall_mem_cons.mpr ⟨hrestored, hes⟩, ?_⟩
      rintro before rfl rfl
      exact List.isChain_cons_cons.mpr ⟨⟨below, step, beside⟩, hchain _ rfl htoken⟩

/-- Lines of safe nodes, each of which may follow the one before, are canonical. -/
theorem canonicalLines_of_isChain {es : List Placed} (hsafe : ∀ e ∈ es, NodeSafe e.rule e.token?)
    {before : Placed} (h : (before :: es).IsChain Follows) :
    CanonicalLines before.depth before.token?.isSome (es.map placedText) := by
  induction es generalizing before with
  | nil => exact .nil
  | cons e es ih =>
      obtain ⟨he, hes⟩ := List.forall_mem_cons.mp hsafe
      obtain ⟨⟨below, step, beside⟩, hrest⟩ := List.isChain_cons_cons.mp h
      exact .cons (canonicalEntry_nodeEntry he) below step beside (ih hes hrest)

/-! ## Reading and printing -/

/-- A tree that can be read again is printed as a canonical text. -/
theorem canonical_print {t : NodeTable} (hbuilt : t.Built) (hsafe : DumpSafe t.tree.outline) :
    Canonical (print .plain t.tree) := by
  have hchain := Outline.isChain_layout 0 hbuilt.tokensAtLeaves
  rw [Outline.layout_eq_cons, hbuilt.token?_root] at hchain
  rw [print, treeText_eq hbuilt.size_pos]
  exact .written hsafe.titleSafe (canonicalLines_of_isChain hsafe.below hchain)

/-- The lines of a canonical text are those of nodes that are restored. Each of them may follow the one
before, so the reader takes them all. -/
theorem CanonicalLines.nodeLines_eq {title : String} {later : List String} (htitle : TitleSafe title)
    (h : CanonicalLines 0 false later) :
    ∃ es : List Placed, es.map placedText = later ∧ ∃ root rest,
      nodeLines (Text.concat ((title :: later).map fun line => line ++ "\n")) = root :: rest ∧
      root.title = title ∧ Lawful rest ∧ rest.map (Line.placed id) = es := by
  obtain ⟨es, rfl, hrestored, hchain⟩ := h.exists_placed
  obtain ⟨root, rest, hnodes, hroot, hspaces, hplaced⟩ :=
    nodeLines_written htitle fun e he => .safe (hrestored e he).safe
  rw [filterMap_rereadPlaced? hrestored] at hplaced
  have hlawful : Lawful rest := by
    apply lawful_of_isChain hspaces
    rw [hplaced]
    exact hchain ⟨0, title, none⟩ rfl rfl
  exact ⟨es, rfl, root, rest, hnodes, hroot, hlawful, hplaced⟩

/-- Every canonical text is read, and the print of the tree is the text. The only thing that can stop
the reading is the number of rows that a table has room for. -/
theorem print_canonical {text : String} (h : Canonical text) :
    ((nodeLines text).length ≤ NodeTable.capacity →
      ∃ t, decode text = .ok t ∧ print .plain t.tree = text) ∧
    (NodeTable.capacity < (nodeLines text).length → decode text = .error (.refused .full)) := by
  obtain @⟨title, later, htitle, hlines⟩ := h
  obtain ⟨es, rfl, root, rest, hnodes, hroot, hlawful, hplaced⟩ := hlines.nodeLines_eq htitle
  constructor
  · intro hroom
    obtain ⟨t, hread, -⟩ := decodeWith_of_lawful id hnodes hlawful hroom
    obtain ⟨hbuilt, -⟩ := built_of_decodeWith hnodes hread
    have hlayout := layout_of_decodeWith id hnodes hroom hread
    rw [Outline.layout_eq_cons, List.cons.injEq, Placed.mk.injEq, hplaced] at hlayout
    obtain ⟨⟨-, hrule, -⟩, hbelow⟩ := hlayout
    refine ⟨t, hread, ?_⟩
    rw [print, treeText_eq hbuilt.size_pos, hrule, hbelow, id, hroot]
  · exact decodeWith_of_overfull id hnodes hlawful

/-- Every form of entry, with quotes and parentheses in the payloads. -/
def everyForm : String :=
  "KtFile: Sample.kt\n  FUN\n    PsiElement(LPAR)('(')\n" ++
    "    PsiWhiteSpace()(')\n  PsiErrorElement\n  (K)('')')\n"

theorem canonical_everyForm : Canonical everyForm := by
  have htext : Text.concat (("KtFile: Sample.kt" :: [indentation 1 ++ "FUN",
      indentation 2 ++ ("PsiElement" ++ "(" ++ "LPAR" ++ ")('" ++ "(" ++ "')"),
      indentation 2 ++ (whiteSpaceRule ++ "(" ++ ")('" ++ ")"), indentation 1 ++ errorRule,
      indentation 1 ++ ("" ++ "(" ++ "K" ++ ")('" ++ "')" ++ "')")]).map
        fun line => line ++ "\n") = everyForm := by
    decide
  rw [← htext]
  refine .written ⟨by decide, by decide, by decide⟩ ?_
  refine .cons (.bare ⟨by decide, by decide, by decide, by decide, by decide⟩ (by decide)
    (by decide)) (by decide) (by decide) (by decide) ?_
  refine .cons (.ordinary ⟨by decide, by decide, by decide, by decide, by decide⟩ (by decide)
    (by decide) (by decide) (by decide) (by decide) (by decide) (by decide) (by decide))
    (by decide) (by decide) (by decide) ?_
  refine .cons (.whiteSpace (by decide)) (by decide) (by decide) (by decide) ?_
  refine .cons .error (by decide) (by decide) (by decide) ?_
  exact .cons (.ordinary ⟨by decide, by decide, by decide, by decide, by decide⟩ (by decide)
    (by decide) (by decide) (by decide) (by decide) (by decide) (by decide) (by decide))
    (by decide) (by decide) (by decide) .nil

theorem print_everyForm :
    Canonical everyForm ∧ (nodeLines everyForm).length ≤ NodeTable.capacity ∧
      ∃ t, decode everyForm = .ok t ∧ print .plain t.tree = everyForm := by
  have hroom : (nodeLines everyForm).length ≤ NodeTable.capacity := by decide
  exact ⟨canonical_everyForm, hroom, (print_canonical canonical_everyForm).1 hroom⟩

/-! ### A text with too many lines -/

/-- A title and so many bare entries on one level. -/
def flatText (n : Nat) : String :=
  Text.concat (("R" :: List.replicate n (indentation 1 ++ "A")).map fun line => line ++ "\n")

theorem canonicalLines_replicate (previous n : Nat) :
    CanonicalLines previous false (List.replicate n (indentation 1 ++ "A")) := by
  induction n generalizing previous with
  | zero => exact .nil
  | succ n ih =>
      refine .cons (.bare ?_ (by decide) (by decide)) (Nat.le_refl 1) (by omega) (by simp) (ih 1)
      exact ⟨by decide, by decide, by decide, by decide, by decide⟩

theorem titleSafe_flatText : TitleSafe "R" := ⟨by decide, by decide, by decide⟩

theorem canonical_flatText (n : Nat) : Canonical (flatText n) :=
  .written titleSafe_flatText (canonicalLines_replicate 0 n)

theorem decode_flatText_of_overfull {n : Nat} (h : NodeTable.capacity ≤ n) :
    decode (flatText n) = .error (.refused .full) := by
  obtain ⟨es, hes, root, rest, hnodes, -, hlawful, hplaced⟩ :=
    (canonicalLines_replicate 0 n).nodeLines_eq titleSafe_flatText
  have hlength : rest.length = n := by
    have hrows := congrArg List.length hplaced
    have hbelow := congrArg List.length hes
    rw [List.length_map] at hrows
    rw [List.length_map, List.length_replicate] at hbelow
    exact hrows.trans hbelow
  have hsize : NodeTable.capacity < (nodeLines (flatText n)).length := by
    rw [flatText, hnodes, List.length_cons, hlength]
    exact Nat.lt_succ_of_le h
  exact decodeWith_of_overfull id hnodes hlawful hsize

/-- A canonical text with one line more than a table has rows is refused, so nothing is printed of
it. -/
theorem canonical_unread_flatText :
    Canonical (flatText NodeTable.capacity) ∧
      decode (flatText NodeTable.capacity) = .error (.refused .full) ∧
      ¬∃ t, decode (flatText NodeTable.capacity) = .ok t ∧
        print .plain t.tree = flatText NodeTable.capacity := by
  have hrefused := decode_flatText_of_overfull (Nat.le_refl NodeTable.capacity)
  refine ⟨canonical_flatText _, hrefused, ?_⟩
  rintro ⟨t, hread, -⟩
  rw [hrefused] at hread
  cases hread

end Dump

end TreeAccord
