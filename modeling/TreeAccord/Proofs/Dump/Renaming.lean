import TreeAccord.Proofs.Dump.Reading

/-! # Reading under other names

The reader passes each rule through a renaming when it stores it, and looks at no stored rule again:
depths come from the lines, and what may stand below what comes from the tokens. So to read under
other names is to read and then rename, unless the names of sentinels would change. -/

namespace TreeAccord

/-! ## Renamed tables -/

/-- The row with another rule. -/
def Row.renamed (rename : String → String) (row : Row) : Row := { row with rule := rename row.rule }

namespace NodeTable

/-- The table with another rule in every row. -/
def renamed (rename : String → String) (t : NodeTable) : NodeTable where
  rows := t.rows.map (Row.renamed rename)
  forward := by
    intro i row h
    rw [Array.getElem?_map] at h
    obtain ⟨old, hold, rfl⟩ := Option.map_eq_some_iff.mp h
    rw [Array.size_map]
    exact t.forward i old hold

variable (rename : String → String) (t : NodeTable)

@[simp] theorem rows_renamed : (t.renamed rename).rows = t.rows.map (Row.renamed rename) := rfl

@[simp] theorem size_renamed : (t.renamed rename).size = t.size := Array.size_map

@[simp] theorem row?_renamed (i : Nat) :
    (t.renamed rename).row? i = (t.row? i).map (Row.renamed rename) :=
  Array.getElem?_map

@[simp] theorem isToken_renamed (i : Nat) : (t.renamed rename).isToken i = t.isToken i := by
  rw [isToken, isToken, row?_renamed, Option.any_map]
  rfl

@[simp] theorem parent?_renamed (i : Nat) : (t.renamed rename).parent? i = t.parent? i := by
  rw [parent?, parent?, row?_renamed, Option.bind_map]
  rfl

@[simp] theorem above_renamed (i : Nat) : (t.renamed rename).above i = t.above i := by
  rw [above, above, parent?_renamed]

theorem extendRows_renamed (rows : Array Row) (parent : Nat) (parentRow node : Row) :
    extendRows (rows.map (Row.renamed rename)) parent (parentRow.renamed rename)
        (node.renamed rename) =
      (extendRows rows parent parentRow node).map (Row.renamed rename) := by
  simp [extendRows, Row.renamed]

/-- Below a row without a token, a renamed node is added, or refused, as the node would be. -/
theorem push_renamed {parent : Nat} (branch : t.isToken parent = false) (rule : String)
    (token? : Option Token) :
    (t.renamed rename).push parent (rename rule) token? =
      (t.push parent rule token?).map (renamed rename) := by
  cases hrow : t.rows[parent]? with
  | none =>
      have hrow' : (t.renamed rename).rows[parent]? = none := by
        simp [hrow]
      rw [push_eq_unknownParent hrow, push_eq_unknownParent hrow']
      rfl
  | some row =>
      have htoken : row.token? = none := by
        simpa [isToken, row?, hrow] using branch
      have hrow' : (t.renamed rename).rows[parent]? = some (row.renamed rename) := by
        simp [hrow]
      by_cases hroom : t.size < capacity
      · obtain ⟨grown, hpush, hrows⟩ := exists_push_eq_ok hrow htoken hroom rule token?
        obtain ⟨grown', hpush', hrows'⟩ :=
          exists_push_eq_ok hrow' htoken (by simpa using hroom) (rename rule) token?
        have hgrown : grown' = grown.renamed rename := by
          apply eq_of_rows_eq
          rw [hrows', rows_renamed, rows_renamed, hrows]
          exact extendRows_renamed rename t.rows parent row
            { rule, token?, parent? := some parent }
        rw [hpush, hpush', hgrown]
        rfl
      · have hfull : capacity ≤ t.size := Nat.not_lt.mp hroom
        rw [push_eq_full hrow htoken hfull, push_eq_full hrow' htoken (by simpa using hfull)]
        rfl

end NodeTable

/-! ## Renamed growth -/

namespace Dump

theorem ascend_renamed (rename : String → String) (table : NodeTable) (levels i : Nat) :
    ascend (table.renamed rename) levels i = ascend table levels i := by
  induction levels generalizing i with
  | zero => rfl
  | succ levels ih => simp only [ascend, NodeTable.above_renamed, ih]

/-- The growth with another rule in every row of its table. -/
def Growth.renamed (rename : String → String) (g : Growth) : Growth :=
  { g with table := g.table.renamed rename }

/-- A renaming that keeps the sentinels names every stored rule. -/
theorem storedRule_eq {rename : String → String}
    (keepsSentinels : ∀ rule, isSentinel rule = true → rename rule = rule) (rule : String) :
    storedRule rename rule = rename (storedRule id rule) := by
  unfold storedRule
  split
  · rename_i hsentinel
    exact (keepsSentinels rule hsentinel).symm
  · rfl

section

variable {rename : String → String}
  (keepsSentinels : ∀ rule, isSentinel rule = true → rename rule = rule)
include keepsSentinels

/-- One line does to the renamed growth what it does to the growth. -/
theorem Growth.add_renamed (g : Growth) (line : Line) :
    (g.renamed rename).add rename line = (g.add id line).map (Growth.renamed rename) := by
  unfold Growth.add
  simp only [Growth.renamed, ascend_renamed, NodeTable.isToken_renamed, NodeTable.size_renamed,
    storedRule_eq keepsSentinels]
  cases checkDepth g.depth line with
  | error fault => rfl
  | ok depth =>
      simp only [Except.mapError, bind, Except.bind]
      cases ascend g.table (g.depth + 1 - depth) g.latest with
      | error refusal => rfl
      | ok parent =>
          dsimp only
          cases htoken : g.table.isToken parent with
          | true => rfl
          | false =>
              simp only [NodeTable.push_renamed rename g.table htoken]
              cases g.table.push parent _ _ with
              | error refusal => rfl
              | ok table => rfl

theorem foldlM_renamed (g : Growth) (lines : List Line) :
    lines.foldlM (Growth.add rename) (g.renamed rename) =
      (lines.foldlM (Growth.add id) g).map (Growth.renamed rename) := by
  induction lines generalizing g with
  | nil => rfl
  | cons line lines ih =>
      rw [List.foldlM_cons, List.foldlM_cons, Growth.add_renamed keepsSentinels]
      cases g.add id line with
      | error failure => rfl
      | ok next => exact ih next

theorem decodeWith_renamed (source : String) :
    decodeWith rename source = (decodeWith id source).map (NodeTable.renamed rename) := by
  unfold decodeWith
  cases nodeLines source with
  | nil => rfl
  | cons root rest =>
      have hstart : Growth.start rename root = (Growth.start id root).renamed rename := by
        simp [Growth.start, Growth.renamed, NodeTable.renamed, NodeTable.singleton, Row.renamed]
      simp only
      rw [hstart, foldlM_renamed keepsSentinels]
      cases rest.foldlM (Growth.add id) (Growth.start id root) with
      | error failure => rfl
      | ok g => rfl

end

/-! ## Class names -/

theorem ofClassName_whiteSpaceRule : RuleName.ofClassName whiteSpaceRule = whiteSpaceRule := by
  decide

theorem ofClassName_errorRule : RuleName.ofClassName errorRule = errorRule := by decide

theorem ofClassName_of_isSentinel (rule : String) (h : isSentinel rule = true) :
    RuleName.ofClassName rule = rule := by
  rw [isSentinel, Bool.or_eq_true] at h
  rcases h with h | h
  · rw [eq_of_beq h, ofClassName_whiteSpaceRule]
  · rw [eq_of_beq h, ofClassName_errorRule]

/-- The candidate reader refuses the texts that the reference reader refuses, each with the same
failure. From any other text both read the same rows, except that every rule of the candidate is the
rule of the reference under the name of its class, and for a sentinel this is the sentinel itself. -/
theorem decodeCandidate_eq_renamed (source : String) :
    decodeCandidate source = (decode source).map (NodeTable.renamed RuleName.ofClassName) ∧
      (∀ failure, decodeCandidate source = .error failure ↔ decode source = .error failure) ∧
      (∀ (table : NodeTable) (i : Nat), (table.renamed RuleName.ofClassName).row? i =
        (table.row? i).map fun row => { row with rule := RuleName.ofClassName row.rule }) ∧
      RuleName.ofClassName whiteSpaceRule = whiteSpaceRule ∧
      RuleName.ofClassName errorRule = errorRule := by
  have hrenamed : decodeCandidate source =
      (decode source).map (NodeTable.renamed RuleName.ofClassName) :=
    decodeWith_renamed ofClassName_of_isSentinel source
  refine ⟨hrenamed, fun failure => ?_, fun table => table.row?_renamed RuleName.ofClassName,
    ofClassName_whiteSpaceRule, ofClassName_errorRule⟩
  rw [hrenamed]
  cases decode source with
  | error failure' => exact Iff.rfl
  | ok table => simp [Except.map]

end Dump

end TreeAccord
