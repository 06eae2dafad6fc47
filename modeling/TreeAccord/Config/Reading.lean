import TreeAccord.Config.Settings
import TreeAccord.Json.Library

/-!
# Reading settings

Settings from their JSON form, with any library for JSON. Every list and side may be left out, and so
may the name policy; the members of pairs may not.
-/

namespace TreeAccord

open Json

variable (lib : Library)

def RulePair.shape : Shape lib.Reader RulePair where
  title := "struct RawRulePair"
  empty := ⟨"", ""⟩
  fields := [
    lib.field "candidate" true lib.text fun p s => { p with candidate := s },
    lib.field "reference" true lib.text fun p s => { p with reference := s }]

def Wrapper.shape : Shape lib.Reader Wrapper where
  title := "struct RawRedundantRule"
  empty := ⟨"", none⟩
  fields := [
    lib.field "rule" true lib.text fun w s => { w with rule := s },
    lib.field "unless_parent" false lib.textOrNull fun w s => { w with unlessParent? := s }]

def Neighbours.shape : Shape lib.Reader Neighbours where
  title := "struct RawTokenPair"
  empty := ⟨"", ""⟩
  fields := [
    lib.field "first" true lib.text fun p s => { p with first := s },
    lib.field "second" true lib.text fun p s => { p with second := s }]

def SigilFold.shape : Shape lib.Reader SigilFold where
  title := "struct RawSigilMerge"
  empty := ⟨"", ""⟩
  fields := [
    lib.field "sigil" true lib.text fun m s => { m with sigil := s },
    lib.field "next_rule" true lib.text fun m s => { m with nextRule := s }]

def SideSettings.shape : Shape lib.Reader SideSettings where
  title := "struct RawProfile"
  empty := {}
  fields := [
    lib.listField "irrelevant_rules" lib.text fun p xs => { p with irrelevantRules := xs },
    lib.listField "irrelevant_rule_fragments" lib.text fun p xs =>
      { p with irrelevantRuleFragments := xs },
    lib.listField "irrelevant_texts" lib.text fun p xs => { p with irrelevantTexts := xs },
    lib.listField "irrelevant_token_kinds" lib.text fun p xs =>
      { p with irrelevantTokenKinds := xs },
    lib.listField "empty_block_rules" lib.text fun p xs => { p with emptyBlockRules := xs },
    lib.listField "always_list_rules" lib.text fun p xs => { p with alwaysListRules := xs },
    lib.listField "redundant_rules" (lib.record (Wrapper.shape lib)) fun p xs =>
      { p with wrappers := xs },
    lib.listField "split_tokens" lib.text fun p xs => { p with splitTokens := xs },
    lib.listField "split_sigils" lib.text fun p xs => { p with splitSigils := xs },
    lib.listField "fused_pairs" (lib.record (Neighbours.shape lib)) fun p xs =>
      { p with fusedPairs := xs },
    lib.listField "sigil_merges" (lib.record (SigilFold.shape lib)) fun p xs =>
      { p with sigilFolds := xs }]

/-- Reads a policy by its name. -/
def NamePolicy.reader : lib.Reader NamePolicy := lib.choice "`every` or `root`" NamePolicy.ofName?

namespace Settings

def shape : Shape lib.Reader Settings where
  title := "struct RawConfig"
  empty := {}
  fields := [
    lib.field "name_check" false (NamePolicy.reader lib) fun s x => { s with namePolicy := x },
    lib.listField "equivalent_rules" (lib.record (RulePair.shape lib)) fun s xs =>
      { s with equivalentRules := xs },
    lib.listField "incomparable_rules" (lib.record (RulePair.shape lib)) fun s xs =>
      { s with incomparableRules := xs },
    lib.field "candidate" false (lib.record (SideSettings.shape lib)) fun s x =>
      { s with candidate := x },
    lib.field "reference" false (lib.record (SideSettings.shape lib)) fun s x =>
      { s with reference := x }]

/-- Reads settings from a text with the given library. -/
def read (source : String) : Except lib.Fault Settings := lib.whole (lib.record (shape lib)) source

/-- The settings that a JSON text holds. -/
def ofJson (source : String) : Except Fault Settings := read .standard source

end Settings

end TreeAccord
