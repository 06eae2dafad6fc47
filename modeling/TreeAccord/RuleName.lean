import TreeAccord.Text.Affix
import TreeAccord.Text.UpperCase

/-!
# Names of rules

Grammar tools name the same rule in different ways. A generated class carries a suffix or a
lower-case initial (`KotlinFileContext`, `kotlinFile`), a node kind is written in words joined by
underscores (`source_file`). Both are brought to the form `KotlinFile`, `SourceFile`.
-/

namespace TreeAccord.RuleName

/-- The ending of generated class names. -/
def classEnding : String := "Context"

/-- The text with its first character in upper case, which may be several characters. -/
def capitalize : List Char → List Char
  | [] => []
  | c :: rest => Text.upperCase c ++ rest

/-- The rule of a generated class: without the ending, if present, and capitalized. -/
def ofClassName (name : String) : String :=
  let cs := name.toList
  String.ofList (capitalize ((Text.dropTail? classEnding.toList cs).getD cs))

/-- Joins words without their underscores, each with its first letter in upper case where that
is a letter from `a` to `z`. -/
def joinWords (atStart : Bool) : List Char → List Char
  | [] => []
  | c :: rest =>
    if c = '_' then joinWords true rest
    else (if atStart then c.toUpper else c) :: joinWords false rest

/-- The rule of a node kind. -/
def ofKindName (kind : String) : String :=
  String.ofList (joinWords true kind.toList)

end TreeAccord.RuleName
