import TreeAccord.Config.Correspondence
import TreeAccord.Config.Side

/-!
# Concordances

Settings with all their look-up tables: what a comparison consults.
-/

namespace TreeAccord

structure Concordance where
  settings : Settings
  candidate : Side
  reference : Side
  equivalent : Correspondence
  incomparable : Correspondence

namespace Concordance

def ofSettings (s : Settings) : Concordance where
  settings := s
  candidate := .ofSettings s.candidate
  reference := .ofSettings s.reference
  equivalent := .ofPairs s.equivalentRules
  incomparable := .ofPairs s.incomparableRules

instance : Inhabited Concordance := ⟨ofSettings {}⟩

variable (k : Concordance)

def namePolicy : NamePolicy := k.settings.namePolicy

/-- The concordance with another name policy. -/
def withPolicy (policy : NamePolicy) : Concordance :=
  { k with settings := { k.settings with namePolicy := policy } }

/-- The concordance with candidate and reference exchanged. -/
def swapped : Concordance := ofSettings k.settings.swapped

/-- Whether the names are equal or a configured pair. -/
def equates (candidate reference : String) : Bool :=
  candidate == reference || k.equivalent.relates candidate reference

/-- Whether the pair matches without a look inside. -/
def waives (candidate reference : String) : Bool := k.incomparable.relates candidate reference

end Concordance

end TreeAccord
