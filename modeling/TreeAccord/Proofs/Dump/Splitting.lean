import TreeAccord.Dump.Print
import TreeAccord.Proofs.Dump.Lines

/-! # Entries that are written and read again

An entry splits back into the rule and the token that it was written for. White space keeps its
text, and any other token gets the text that was written for it, in which line breaks and tabs are
escapes. -/

namespace TreeAccord.Dump

/-! ## Nodes that can be read again -/

/-- A rule that is told apart from the indentation before it, from the token after it and from the
sentinels. -/
structure NameSafe (rule : String) : Prop where
  parenthesis : '(' ∉ rule.toList
  lineFeed : '\n' ∉ rule.toList
  space : rule.toList.head? ≠ some ' '
  whiteSpace : whiteSpaceRule.toList.isPrefixOf rule.toList = false
  error : errorRule.toList.isPrefixOf rule.toList = false

instance (rule : String) : Decidable (NameSafe rule) :=
  decidable_of_iff
    ('(' ∉ rule.toList ∧ '\n' ∉ rule.toList ∧ rule.toList.head? ≠ some ' ' ∧
      whiteSpaceRule.toList.isPrefixOf rule.toList = false ∧
      errorRule.toList.isPrefixOf rule.toList = false)
    ⟨fun ⟨h, h', h'', h₃, h₄⟩ => ⟨h, h', h'', h₃, h₄⟩,
      fun ⟨h, h', h'', h₃, h₄⟩ => ⟨h, h', h'', h₃, h₄⟩⟩

/-- The rule and token of a node below the root that can be read again. The text of an ordinary
token is arbitrary, unless its kind has a fixed one. -/
inductive NodeSafe : String → Option Token → Prop where
  | bare {rule : String} (name : NameSafe rule) (nonempty : rule ≠ "")
      (trimmed : Text.trimEnd rule.toList = rule.toList) : NodeSafe rule none
  | whiteSpace {text : String} (lineFeed : '\n' ∉ text.toList) :
      NodeSafe whiteSpaceRule (some ⟨whiteSpaceRule, text⟩)
  | error : NodeSafe errorRule (some ⟨errorRule, ""⟩)
  | ordinary {rule kind text : String} (name : NameSafe rule) (closing : ')' ∉ kind.toList)
      (lineFeed : '\n' ∉ kind.toList) (sentinel : isSentinel kind = false)
      (left : kind = "LPAR" → text = "(") (right : kind = "RPAR" → text = ")") :
      NodeSafe rule (some ⟨kind, text⟩)

/-- The token that is read where this one was written. -/
def readBack (token : Token) : Token :=
  if token.kind = whiteSpaceRule then token else ⟨token.kind, escape token.text⟩

/-! ## Written entries -/

/-- What is written for a node below the root, without color. -/
def nodeEntry (rule : String) (token? : Option Token) : String :=
  entry .plain ⟨0, rule, token?.map Token.kind, (token?.map Token.text).getD "", token?.isSome⟩

theorem nodeEntry_none (rule : String) : nodeEntry rule none = rule := by
  simp [nodeEntry, entry, Palette.plain]

theorem nodeEntry_whiteSpace (rule text : String) :
    (nodeEntry rule (some ⟨whiteSpaceRule, text⟩)).toList =
      rule.toList ++ '(' :: (text.toList ++ [')']) := by
  simp [nodeEntry, entry, Palette.plain]

theorem nodeEntry_error (rule text : String) :
    nodeEntry rule (some ⟨errorRule, text⟩) = rule := by
  have hne : errorRule ≠ whiteSpaceRule := by decide
  simp [nodeEntry, entry, Palette.plain, hne]

theorem nodeEntry_ordinary {kind : String} (h : isSentinel kind = false) (rule text : String) :
    (nodeEntry rule (some ⟨kind, text⟩)).toList =
      rule.toList ++ '(' :: (kind.toList ++
        ')' :: '(' :: '\'' :: ((escape text).toList ++ ['\'', ')'])) := by
  obtain ⟨hwhite, herror⟩ : kind ≠ whiteSpaceRule ∧ kind ≠ errorRule := by
    simpa [isSentinel] using h
  simp [nodeEntry, entry, Palette.plain, hwhite, herror]

/-! ## Splitting -/

/-- A word without parentheses begins an entry only if it begins what stands before the first
one. -/
theorem isPrefixOf_append_parenthesis {word rule : List Char} (hword : '(' ∉ word)
    (h : word.isPrefixOf rule = false) (rest : List Char) :
    word.isPrefixOf (rule ++ '(' :: rest) = false := by
  induction rule generalizing word with
  | nil =>
      cases word with
      | nil => cases h
      | cons c word =>
          have hc : c ≠ '(' := Ne.symm (List.ne_of_not_mem_cons hword)
          rw [List.nil_append, List.isPrefixOf_cons_cons, beq_eq_false_iff_ne.mpr hc,
            Bool.false_and]
  | cons d rule ih =>
      cases word with
      | nil => cases h
      | cons c word =>
          rw [List.isPrefixOf_cons_cons, Bool.and_eq_false_iff] at h
          rw [List.cons_append, List.isPrefixOf_cons_cons, Bool.and_eq_false_iff]
          rcases h with h | h
          · exact .inl h
          · exact .inr (ih (List.not_mem_of_not_mem_cons hword) h)

/-- What stands before a parenthesis keeps an entry from beginning with a space. -/
theorem head?_append_parenthesis {rule : List Char} (h : rule.head? ≠ some ' ') (rest : List Char) :
    (rule ++ '(' :: rest).head? ≠ some ' ' := by
  cases rule with
  | nil => simp
  | cons c rule => exact h

theorem dropFinal?_concat (c : Char) (cs : List Char) : dropFinal? c (cs ++ [c]) = some cs := by
  simp [dropFinal?]

theorem unquote_quoted (text : List Char) : unquote ('\'' :: (text ++ ['\''])) = text := by
  rw [unquote, dropFinal?_concat, Option.getD_some]

theorem payloadText_quoted (text : List Char) :
    payloadText ('(' :: '\'' :: (text ++ ['\'', ')'])) = text := by
  have hclosed : '\'' :: (text ++ ['\'', ')']) = '\'' :: (text ++ ['\'']) ++ [')'] := by simp
  rw [payloadText, hclosed, dropFinal?_concat, Option.getD_some, unquote_quoted]

theorem outerPayload_append {rule : List Char} (hrule : '(' ∉ rule) (text : List Char) :
    outerPayload (rule ++ '(' :: (text ++ [')'])) = text := by
  rw [outerPayload, cutFirst?_append hrule]
  simp [beforeLast?_append]

theorem splitEntry_bare {rule : String} (name : NameSafe rule)
    (trimmed : Text.trimEnd rule.toList = rule.toList) :
    splitEntry rule.toList = (rule, none) := by
  have hcut := (cutFirst?_eq_none_iff '(' rule.toList).mpr name.parenthesis
  rw [splitEntry, name.whiteSpace, name.error, hcut, trimmed, String.ofList_toList]
  rfl

/-- Kinds with a fixed text keep it, and other kinds keep the text that is written. -/
theorem fixedText {kind text : String} (left : kind = "LPAR" → text = "(")
    (right : kind = "RPAR" → text = ")") :
    (parenthesis? kind).getD (escape text) = escape text := by
  unfold parenthesis?
  by_cases hleft : kind = "LPAR"
  · rw [left hleft, if_pos hleft]
    decide
  by_cases hright : kind = "RPAR"
  · rw [right hright, if_neg hleft, if_pos hright]
    decide
  · rw [if_neg hleft, if_neg hright]
    rfl

/-- A kind with a fixed text gets it, whatever was written. -/
theorem splitEntry_ordinary {rule kind : String} (name : NameSafe rule)
    (closing : ')' ∉ kind.toList) (text : String) :
    splitEntry (rule.toList ++ '(' :: (kind.toList ++
        ')' :: '(' :: '\'' :: ((escape text).toList ++ ['\'', ')']))) =
      (rule, some ⟨kind, (parenthesis? kind).getD (escape text)⟩) := by
  have hwhite := fun rest => isPrefixOf_append_parenthesis (by decide) name.whiteSpace rest
  have herror := fun rest => isPrefixOf_append_parenthesis (by decide) name.error rest
  simp only [splitEntry, hwhite, herror, cutFirst?_append name.parenthesis,
    cutFirst?_append closing, Bool.false_eq_true, if_false, Option.getD_some, payloadText_quoted,
    String.ofList_toList]

/-- An entry is split into what it was written for. -/
theorem splitEntry_nodeEntry {rule : String} {token? : Option Token} (h : NodeSafe rule token?) :
    splitEntry (nodeEntry rule token?).toList = (rule, token?.map readBack) := by
  cases h with
  | bare name nonempty trimmed =>
      rw [nodeEntry_none]
      exact splitEntry_bare name trimmed
  | @whiteSpace text lineFeed =>
      have hbegins : whiteSpaceRule.toList.isPrefixOf
          (whiteSpaceRule.toList ++ '(' :: (text.toList ++ [')'])) = true := by
        rw [List.isPrefixOf_iff_prefix]
        exact List.prefix_append _ _
      rw [nodeEntry_whiteSpace, splitEntry, if_pos hbegins, outerPayload_append (by decide),
        String.ofList_toList]
      rfl
  | error =>
      rw [nodeEntry_error]
      decide
  | @ordinary rule kind text name closing lineFeed sentinel left right =>
      rw [nodeEntry_ordinary sentinel, splitEntry_ordinary name closing, fixedText left right]
      have hne : kind ≠ whiteSpaceRule := by
        rintro rfl
        cases sentinel
      simp [readBack, hne]

/-! ## Entries as parts of lines -/

section

variable {rule kind : String} (sentinel : isSentinel kind = false) (text : String)
include sentinel

theorem lineFeed_not_mem_ordinary (hrule : '\n' ∉ rule.toList) (hkind : '\n' ∉ kind.toList) :
    '\n' ∉ (nodeEntry rule (some ⟨kind, text⟩)).toList := by
  simp [nodeEntry_ordinary sentinel, hrule, hkind, lineFeed_not_mem_escape]

theorem endsSolid_ordinary : EndsSolid (nodeEntry rule (some ⟨kind, text⟩)).toList := by
  refine ⟨')', ?_, by decide⟩
  rw [nodeEntry_ordinary sentinel]
  simp [List.getLast?_append, List.getLast?_cons]

theorem head?_ordinary (name : NameSafe rule) :
    (nodeEntry rule (some ⟨kind, text⟩)).toList.head? ≠ some ' ' := by
  rw [nodeEntry_ordinary sentinel]
  exact head?_append_parenthesis name.space _

end

section

variable {rule : String} {token? : Option Token}

theorem lineFeed_not_mem_nodeEntry (h : NodeSafe rule token?) :
    '\n' ∉ (nodeEntry rule token?).toList := by
  cases h with
  | bare name nonempty trimmed =>
      rw [nodeEntry_none]
      exact name.lineFeed
  | whiteSpace lineFeed =>
      have hrule : '\n' ∉ whiteSpaceRule.toList := by decide
      simp [nodeEntry_whiteSpace, lineFeed, hrule]
  | error =>
      rw [nodeEntry_error]
      decide
  | ordinary name closing lineFeed sentinel left right =>
      exact lineFeed_not_mem_ordinary sentinel _ name.lineFeed lineFeed

theorem endsSolid_nodeEntry (h : NodeSafe rule token?) :
    EndsSolid (nodeEntry rule token?).toList := by
  cases h with
  | bare name nonempty trimmed =>
      rw [nodeEntry_none, ← trimmed]
      exact endsSolid_trimEnd (by simpa [trimmed] using nonempty)
  | @whiteSpace text lineFeed =>
      rw [nodeEntry_whiteSpace]
      exact (endsSolid_concat (by decide) ('(' :: text.toList)).append_left _
  | error =>
      rw [nodeEntry_error]
      exact ⟨'t', by decide, by decide⟩
  | ordinary name closing lineFeed sentinel left right => exact endsSolid_ordinary sentinel _

/-- The entry does not run into the indentation before it. -/
theorem head?_nodeEntry (h : NodeSafe rule token?) :
    (nodeEntry rule token?).toList.head? ≠ some ' ' := by
  cases h with
  | bare name nonempty trimmed =>
      rw [nodeEntry_none]
      exact name.space
  | whiteSpace lineFeed =>
      have hrule : whiteSpaceRule.toList.head? = some 'P' := by decide
      simp [nodeEntry_whiteSpace, List.head?_append, hrule]
  | error =>
      rw [nodeEntry_error]
      decide
  | ordinary name closing lineFeed sentinel left right => exact head?_ordinary sentinel _ name

end

end TreeAccord.Dump
