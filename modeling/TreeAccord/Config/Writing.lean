import TreeAccord.Config.Settings
import TreeAccord.Json.Value

/-!
# Writing settings

The JSON form of settings, with all fields in their order; only the exception of a wrapper is left
out where there is none.
-/

namespace TreeAccord

open Json in
/-- A list of texts. -/
def textsJson (items : List String) : Json := list (items.map text)

open Json in
def RulePair.toJson (p : RulePair) : Json :=
  object [("candidate", text p.candidate), ("reference", text p.reference)]

open Json in
def Wrapper.toJson (w : Wrapper) : Json :=
  object (("rule", text w.rule) ::
    (w.unlessParent?.map fun parent => ("unless_parent", text parent)).toList)

open Json in
def Neighbours.toJson (p : Neighbours) : Json :=
  object [("first", text p.first), ("second", text p.second)]

open Json in
def SigilFold.toJson (m : SigilFold) : Json :=
  object [("sigil", text m.sigil), ("next_rule", text m.nextRule)]

open Json in
def SideSettings.toJson (p : SideSettings) : Json :=
  object [
    ("irrelevant_rules", textsJson p.irrelevantRules),
    ("irrelevant_rule_fragments", textsJson p.irrelevantRuleFragments),
    ("irrelevant_texts", textsJson p.irrelevantTexts),
    ("irrelevant_token_kinds", textsJson p.irrelevantTokenKinds),
    ("empty_block_rules", textsJson p.emptyBlockRules),
    ("always_list_rules", textsJson p.alwaysListRules),
    ("redundant_rules", list (p.wrappers.map Wrapper.toJson)),
    ("split_tokens", textsJson p.splitTokens),
    ("split_sigils", textsJson p.splitSigils),
    ("fused_pairs", list (p.fusedPairs.map Neighbours.toJson)),
    ("sigil_merges", list (p.sigilFolds.map SigilFold.toJson))]

namespace Settings

open Json in
def toJson (s : Settings) : Json :=
  object [
    ("name_check", text s.namePolicy.name),
    ("equivalent_rules", list (s.equivalentRules.map RulePair.toJson)),
    ("incomparable_rules", list (s.incomparableRules.map RulePair.toJson)),
    ("candidate", s.candidate.toJson),
    ("reference", s.reference.toJson)]

def pretty (s : Settings) : String := s.toJson.pretty

def compact (s : Settings) : String := s.toJson.compact

end Settings

end TreeAccord
