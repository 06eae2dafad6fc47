import TreeAccord.Config.Groups
import TreeAccord.Config.Settings
import TreeAccord.Text.Affix

/-!
# Sides

The settings of one side in the form in which they are looked up while trees are compared. The
exceptions of a wrapper are gathered under its rule.
-/

namespace TreeAccord

structure Side where
  settings : SideSettings
  /-- The parents below which each wrapper is kept. -/
  exceptions : Groups String

namespace Side

/-- Gathers one wrapper's exception under its rule. -/
def gather (g : Groups String) (wrapper : Wrapper) : Groups String :=
  g.alter wrapper.rule fun parents => parents ++ wrapper.unlessParent?.toList

def ofSettings (s : SideSettings) : Side := ⟨s, s.wrappers.foldl gather []⟩

instance : Inhabited Side := ⟨ofSettings {}⟩

variable (p : Side)

/-- Whether the rule is noise, by its name or a fragment of it. -/
def isNoiseRule (rule : String) : Bool :=
  p.settings.irrelevantRules.contains rule
    || p.settings.irrelevantRuleFragments.any fun fragment => Text.within fragment rule

def isNoiseText (text : String) : Bool := p.settings.irrelevantTexts.contains text

def isNoiseKind (kind : String) : Bool := p.settings.irrelevantTokenKinds.contains kind

def isBlockRule (rule : String) : Bool := p.settings.emptyBlockRules.contains rule

def isListRule (rule : String) : Bool := p.settings.alwaysListRules.contains rule

/-- Whether the rule is a transparent wrapper below the parent, or at the root. -/
def isWrapper (rule : String) (parent? : Option String) : Bool :=
  match p.exceptions.find? rule with
  | none => false
  | some parents => parent?.all fun parent => !parents.contains parent

/-- Whether the sigil is glued to more text on one of its sides. -/
def isGlued (text sigil : String) : Bool :=
  text != sigil && (Text.leads sigil text || Text.ends sigil text)

/-- How many more tokens the other side counts for a node of this text. -/
def extraTokens (text : String) (terminal : Bool) : Nat :=
  (if p.settings.splitTokens.contains text then 1 else 0)
    + (if terminal then (p.settings.splitSigils.filter (isGlued text)).length else 0)

/-- Whether the other side fuses two neighbours of these texts. -/
def fuses (first second : String) : Bool := p.settings.fusedPairs.contains ⟨first, second⟩

/-- Whether the other side folds a node of this rule into the sigil before it. -/
def foldsInto (sigil nextRule : String) : Bool := p.settings.sigilFolds.contains ⟨sigil, nextRule⟩

/-! ## What a side never asks -/

def hasNoiseTexts : Bool := !p.settings.irrelevantTexts.isEmpty

def hasWrappers : Bool := !p.exceptions.isEmpty

/-- Whether anything of the side looks at texts. -/
def inspectsText : Bool :=
  !p.settings.irrelevantTexts.isEmpty || !p.settings.splitTokens.isEmpty
    || !p.settings.splitSigils.isEmpty || !p.settings.fusedPairs.isEmpty
    || !p.settings.sigilFolds.isEmpty

/-- A side looks at no text if it has no texts to look for. -/
theorem inspectsText_eq_false_iff :
    p.inspectsText = false ↔
      p.settings.irrelevantTexts = [] ∧ p.settings.splitTokens = [] ∧ p.settings.splitSigils = [] ∧
        p.settings.fusedPairs = [] ∧ p.settings.sigilFolds = [] := by
  simp [inspectsText, and_assoc]

end Side

end TreeAccord
