import TreeAccord.Text.Blank
import TreeAccord.Tree.Table

/-!
# Entries of a dump

What a line says after its indentation: a bare rule, or `Rule(KIND)('text')` for a token. Two
rules stand apart. White space keeps everything between its outermost parentheses as it is, and an
error element drops its message.
-/

namespace TreeAccord.Dump

/-- Rule and kind of white space. -/
def whiteSpaceRule : String := "PsiWhiteSpace"

/-- Rule and kind of an error element. -/
def errorRule : String := "PsiErrorElement"

/-- What stands before and after the first `c`. -/
def cutFirst? (c : Char) : List Char → Option (List Char × List Char)
  | [] => none
  | d :: rest =>
    if d = c then some ([], rest)
    else (cutFirst? c rest).map fun (before, after) => (d :: before, after)

/-- What stands before the last `c`. -/
def beforeLast? (c : Char) : List Char → Option (List Char)
  | [] => none
  | d :: rest =>
    match beforeLast? c rest with
    | some before => some (d :: before)
    | none => if d = c then some [] else none

/-- The text without a final `c`, if it ends so. -/
def dropFinal? (c : Char) (cs : List Char) : Option (List Char) :=
  if cs.getLast? = some c then some cs.dropLast else none

/-- What stands between the first opening and the last closing parenthesis. -/
def outerPayload (entry : List Char) : List Char :=
  match cutFirst? '(' entry with
  | some (_, after) => (beforeLast? ')' after).getD []
  | none => []

/-- A text without the quotes around it, if it has both. -/
def unquote (cs : List Char) : List Char :=
  match cs with
  | '\'' :: rest => (dropFinal? '\'' rest).getD cs
  | _ => cs

/-- The text of a token from what follows its kind: one parenthesis is dropped on either side,
then a pair of quotes. Escapes stay as written. -/
def payloadText (payload : List Char) : List Char :=
  let inner := match payload with
    | '(' :: rest => rest
    | _ => payload
  unquote ((dropFinal? ')' inner).getD inner)

/-- The text that a token has by its kind alone, where a dump writes it with parentheses of its
own. -/
def parenthesis? (kind : String) : Option String :=
  if kind = "LPAR" then some "(" else if kind = "RPAR" then some ")" else none

/-- The rule of an entry, and its token if it is a leaf. -/
def splitEntry (entry : List Char) : String × Option Token :=
  if whiteSpaceRule.toList.isPrefixOf entry then
    (whiteSpaceRule, some ⟨whiteSpaceRule, String.ofList (outerPayload entry)⟩)
  else if errorRule.toList.isPrefixOf entry then
    (errorRule, some ⟨errorRule, ""⟩)
  else
    match cutFirst? '(' entry with
    | none => (String.ofList (Text.trimEnd entry), none)
    | some (rule, rest) =>
      let (kind, payload) := (cutFirst? ')' rest).getD (rest, [])
      let kind := String.ofList kind
      (String.ofList rule,
        some ⟨kind, (parenthesis? kind).getD (String.ofList (payloadText payload))⟩)

/-- Whether the rule belongs to white space or to an error element. -/
def isSentinel (rule : String) : Bool := rule == whiteSpaceRule || rule == errorRule

theorem cutFirst?_eq_some {c : Char} {cs before after : List Char}
    (h : cutFirst? c cs = some (before, after)) : cs = before ++ c :: after ∧ c ∉ before := by
  induction cs generalizing before with
  | nil => simp [cutFirst?] at h
  | cons d rest ih =>
    unfold cutFirst? at h
    split at h
    · rename_i hd
      cases h
      simp [hd]
    · rename_i hd
      obtain ⟨⟨b, a⟩, hb, he⟩ := Option.map_eq_some_iff.mp h
      cases he
      obtain ⟨rfl, hn⟩ := ih hb
      exact ⟨rfl, by simp [Ne.symm hd, hn]⟩

theorem cutFirst?_append {c : Char} {before : List Char} (h : c ∉ before) (after : List Char) :
    cutFirst? c (before ++ c :: after) = some (before, after) := by
  induction before with
  | nil => simp [cutFirst?]
  | cons d rest ih =>
    simp only [List.mem_cons, not_or] at h
    simp [cutFirst?, Ne.symm h.1, ih h.2]

theorem cutFirst?_eq_none_iff (c : Char) (cs : List Char) : cutFirst? c cs = none ↔ c ∉ cs := by
  induction cs with
  | nil => simp [cutFirst?]
  | cons d rest ih =>
    unfold cutFirst?
    split
    · rename_i hd
      simp [hd]
    · rename_i hd
      simp [ih, Ne.symm hd]

theorem beforeLast?_append (c : Char) (before : List Char) {after : List Char}
    (h : c ∉ after) : beforeLast? c (before ++ c :: after) = some before := by
  have none_of : ∀ cs : List Char, c ∉ cs → beforeLast? c cs = none := by
    intro cs
    induction cs with
    | nil => simp [beforeLast?]
    | cons d rest ih =>
      intro hn
      simp only [List.mem_cons, not_or] at hn
      simp [beforeLast?, ih hn.2, Ne.symm hn.1]
  induction before with
  | nil => simp [beforeLast?, none_of after h]
  | cons d rest ih => simp [beforeLast?, ih]

end TreeAccord.Dump
