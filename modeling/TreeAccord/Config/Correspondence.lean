import TreeAccord.Config.Groups
import TreeAccord.Config.Settings
import TreeAccord.Text.Affix

/-!
# Corresponding rules

A table of rule pairs. Pairs of plain names are gathered by the candidate's name, each once;
a pair with a star on either side is kept as a pair of patterns.
-/

namespace TreeAccord

inductive NamePattern where
  /-- One name. -/
  | exactly (name : String)
  /-- Every name that begins so. -/
  | leading (start : String)
deriving DecidableEq, Repr

namespace NamePattern

/-- A star at the end makes a pattern of what stands before it. -/
def ofText (text : String) : NamePattern :=
  match Text.dropTail? ['*'] text.toList with
  | some start => .leading (String.ofList start)
  | none => .exactly text

def admits : NamePattern → String → Bool
  | exactly name, rule => name == rule
  | leading start, rule => Text.leads start rule

end NamePattern

structure Correspondence where
  /-- The reference names under each candidate name. -/
  exact : Groups String := []
  patterns : List (NamePattern × NamePattern) := []
deriving Repr

namespace Correspondence

/-- Adds a pair, a pair of plain names only once. -/
def insert (t : Correspondence) (pair : RulePair) : Correspondence :=
  match NamePattern.ofText pair.candidate, NamePattern.ofText pair.reference with
  | .exactly c, .exactly r =>
    { t with exact := t.exact.alter c fun names => if r ∈ names then names else names ++ [r] }
  | c, r => { t with patterns := t.patterns ++ [(c, r)] }

def ofPairs (pairs : List RulePair) : Correspondence := pairs.foldl insert {}

/-- Whether the table relates a candidate rule to a reference rule. -/
def relates (t : Correspondence) (candidate reference : String) : Bool :=
  (t.exact.find? candidate).any (fun names => names.contains reference)
    || t.patterns.any fun (c, r) => c.admits candidate && r.admits reference

/-- The number of different plain pairs and of all patterns. -/
def size (t : Correspondence) : Nat :=
  t.exact.foldr (fun entry n => entry.2.length + n) t.patterns.length

def isEmpty (t : Correspondence) : Bool := t.size == 0

end Correspondence

end TreeAccord
