/-!
# Leading, trailing and inner fragments of a text

Texts are compared character by character. The empty fragment leads, ends and occurs in every
text.
-/

namespace TreeAccord.Text

/-- Whether `text` begins with `fragment`. -/
def leads (fragment text : String) : Bool :=
  fragment.toList.isPrefixOf text.toList

/-- Whether `text` ends with `fragment`. -/
def ends (fragment text : String) : Bool :=
  fragment.toList.isSuffixOf text.toList

/-- Whether `fragment` occurs as a run of neighbours in `text`. -/
def occursIn (fragment : List Char) : List Char → Bool
  | [] => fragment.isEmpty
  | c :: rest => fragment.isPrefixOf (c :: rest) || occursIn fragment rest

/-- Whether `text` contains `fragment`. -/
def within (fragment text : String) : Bool :=
  occursIn fragment.toList text.toList

/-- The text without `tail` at its end, if it ends so. -/
def dropTail? (tail text : List Char) : Option (List Char) :=
  if tail.isSuffixOf text then some (text.take (text.length - tail.length)) else none

theorem leads_iff (fragment text : String) :
    leads fragment text = true ↔ fragment.toList <+: text.toList :=
  List.isPrefixOf_iff_prefix

theorem ends_iff (fragment text : String) :
    ends fragment text = true ↔ fragment.toList <:+ text.toList :=
  List.isSuffixOf_iff_suffix

theorem dropTail?_append (front tail : List Char) :
    dropTail? tail (front ++ tail) = some front := by
  simp [dropTail?]

end TreeAccord.Text
