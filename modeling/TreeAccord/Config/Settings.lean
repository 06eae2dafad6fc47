/-!
# Settings

A configuration as it is written down: which rules of the two vocabularies correspond, which pairs
are taken as equal without a look inside, and for each side which nodes are noise, which wrappers
are transparent, and how its tokens are counted.
-/

namespace TreeAccord

/-- A candidate rule and the reference rule it corresponds to. A star at the end of either stands
for any ending. -/
structure RulePair where
  candidate : String
  reference : String
deriving DecidableEq, Repr

/-- A transparent wrapper, which may be kept below one parent. -/
structure Wrapper where
  rule : String
  unlessParent? : Option String := none
deriving DecidableEq, Repr

/-- Two texts that stand next to each other. -/
structure Neighbours where
  first : String
  second : String
deriving DecidableEq, Repr

/-- A sigil and the rule that follows it. -/
structure SigilFold where
  sigil : String
  nextRule : String
deriving DecidableEq, Repr

/-- How one side is read. -/
structure SideSettings where
  irrelevantRules : List String := []
  /-- Fragments that make every rule containing them irrelevant. -/
  irrelevantRuleFragments : List String := []
  irrelevantTexts : List String := []
  irrelevantTokenKinds : List String := []
  /-- Rules that vanish when nothing relevant stands below them. -/
  emptyBlockRules : List String := []
  alwaysListRules : List String := []
  wrappers : List Wrapper := []
  /-- Texts that the other side splits into two tokens. -/
  splitTokens : List String := []
  /-- Sigils that are glued to a name in one token. -/
  splitSigils : List String := []
  /-- Neighbours that the other side fuses into one token. -/
  fusedPairs : List Neighbours := []
  /-- Sigils into which the other side folds the node that follows. -/
  sigilFolds : List SigilFold := []
deriving DecidableEq, Repr, Inhabited

/-- Where rule names are checked. -/
inductive NamePolicy where
  /-- At every pair. -/
  | every
  /-- At the topmost pair only. -/
  | root
deriving DecidableEq, Repr

namespace NamePolicy

instance : Inhabited NamePolicy := ⟨every⟩

def name : NamePolicy → String
  | every => "every"
  | root => "root"

def ofName? (name : String) : Option NamePolicy :=
  if name = "every" then some every else if name = "root" then some root else none

/-- The other policy. -/
def other : NamePolicy → NamePolicy
  | every => root
  | root => every

/-- Whether names are checked at a pair of the given depth. -/
def checks : NamePolicy → Nat → Bool
  | every, _ => true
  | root, depth => depth == 0

@[simp] theorem other_other (p : NamePolicy) : p.other.other = p := by cases p <;> rfl

@[simp] theorem ofName?_name (p : NamePolicy) : ofName? p.name = some p := by
  cases p <;> decide

end NamePolicy

structure Settings where
  namePolicy : NamePolicy := .every
  equivalentRules : List RulePair := []
  /-- Pairs that match without a look inside. -/
  incomparableRules : List RulePair := []
  candidate : SideSettings := {}
  reference : SideSettings := {}
deriving DecidableEq, Repr, Inhabited

/-- The pair with its sides exchanged. -/
def RulePair.flip (p : RulePair) : RulePair := ⟨p.reference, p.candidate⟩

@[simp] theorem RulePair.flip_flip (p : RulePair) : p.flip.flip = p := rfl

/-- The settings with candidate and reference exchanged. -/
def Settings.swapped (s : Settings) : Settings where
  namePolicy := s.namePolicy
  equivalentRules := s.equivalentRules.map RulePair.flip
  incomparableRules := s.incomparableRules.map RulePair.flip
  candidate := s.reference
  reference := s.candidate

@[simp] theorem Settings.swapped_swapped (s : Settings) : s.swapped.swapped = s := by
  simp [Settings.swapped, Function.comp_def]

end TreeAccord
