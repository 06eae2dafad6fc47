import TreeAccord.Proofs.Compare.Lockstep
import TreeAccord.Proofs.View.Answers

/-! # Settings with the same contents

A comparison looks up rules and asks its sides, and so it cannot tell settings apart whose lists have
the same members. -/

namespace TreeAccord

open View

/-! ## Look-ups -/

/-- The concordances answer every question of a comparison alike. -/
structure Concordance.Alike (k k' : Concordance) : Prop where
  namePolicy : k.namePolicy = k'.namePolicy
  equates : ∀ candidate reference, k.equates candidate reference = k'.equates candidate reference
  waives : ∀ candidate reference, k.waives candidate reference = k'.waives candidate reference
  candidate : k.candidate.Alike k'.candidate
  reference : k.reference.Alike k'.reference

theorem Concordance.alike_of_sameContents {s s' : Settings} (h : s.SameContents s') :
    (ofSettings s).Alike (ofSettings s') where
  namePolicy := h.namePolicy
  equates candidate reference := by
    simp only [equates, ofSettings, Correspondence.relates_ofPairs, h.equivalentRules.any_eq]
  waives candidate reference := by
    simp only [waives, ofSettings, Correspondence.relates_ofPairs, h.incomparableRules.any_eq]
  candidate := Side.alike_of_sameContents h.candidate
  reference := Side.alike_of_sameContents h.reference

/-! ## Comparisons -/

namespace Comparison

variable {k k' : Concordance} (h : k.Alike k')
include h

theorem namesAgree_eq (c r : Tree) : namesAgree k c r = namesAgree k' c r := by
  rw [namesAgree, namesAgree, h.equates]

/-- The same checks are made at every pair, and the same nodes are met below it. -/
theorem verdict_compare_eq_of_alike (limit? : Option Nat) (depth : Nat) (c r : Tree) :
    (compare ⟨k, limit?⟩ depth c r).verdict = (compare ⟨k', limit?⟩ depth c r).verdict := by
  induction c using exposed_induction k.candidate generalizing depth r with
  | step c ih =>
      have hshape : shapeVerdict ⟨k, limit?⟩ depth c r = shapeVerdict ⟨k', limit?⟩ depth c r := by
        rw [shapeVerdict, shapeVerdict]
        dsimp only
        rw [← h.candidate.arity_eq, ← h.reference.arity_eq, ← h.candidate.exposed_eq,
          ← h.reference.exposed_eq]
        split
        · apply verdict_meet_rel (fun _ => rfl)
          · rintro v _ v' _ rfl rfl
            rfl
          · intro a ha b _
            rw [ih a ha]
        · rfl
      have hdeep : tooDeep? ⟨k, limit?⟩ depth = tooDeep? ⟨k', limit?⟩ depth := rfl
      rw [verdict_compare, verdict_compare, hshape, hdeep]
      dsimp only
      rw [h.waives, h.namePolicy, namesAgree_eq h]

end Comparison

/-- Comparisons under the same limit come to the same verdict on any two trees if their settings have
the same policy and the same members in every list, the sigils of a side in any order but equally
often. Among the lists are the wrappers: a rule is one if an entry names it and no entry for it,
wherever it stands, excepts the parent. -/
theorem verdict_sameContents {s s' : Settings} (h : s.SameContents s') (limit? : Option Nat)
    (c r : Tree) :
    Comparison.verdict ⟨.ofSettings s, limit?⟩ c r =
        Comparison.verdict ⟨.ofSettings s', limit?⟩ c r ∧
      ∀ (side : SideSettings) (rule : String) (parent? : Option String),
        (Side.ofSettings side).isWrapper rule parent? = true ↔
          (∃ w ∈ side.wrappers, w.rule = rule) ∧
            ∀ parent, parent? = some parent → (⟨rule, some parent⟩ : Wrapper) ∉ side.wrappers := by
  refine ⟨?_, Side.isWrapper_ofSettings_iff⟩
  rw [Comparison.verdict_eq, Comparison.verdict_eq]
  exact Comparison.verdict_compare_eq_of_alike (Concordance.alike_of_sameContents h) limit? 0 c r

/-! ### Scattered entries -/

/-- Entries stand twice and in no order; a sigil counts as often as it stands. -/
def scatteredSettings : Settings where
  equivalentRules := [⟨"Fun", "FUN"⟩, ⟨"St*", "STMT"⟩, ⟨"Fun", "FUN"⟩]
  candidate := {
    irrelevantRules := ["Semi", "Comment", "Semi"]
    wrappers := [⟨"Body", some "Class"⟩, ⟨"Head", none⟩, ⟨"Body", some "Object"⟩]
    splitSigils := ["@", "#", "@"] }

def gatheredSettings : Settings where
  equivalentRules := [⟨"St*", "STMT"⟩, ⟨"Fun", "FUN"⟩]
  candidate := {
    irrelevantRules := ["Comment", "Semi"]
    wrappers := [⟨"Body", some "Object"⟩, ⟨"Body", some "Class"⟩, ⟨"Head", none⟩, ⟨"Head", none⟩]
    splitSigils := ["@", "@", "#"] }

/-- A body of a statement and a label that counts three times. -/
def labelledTree : Tree :=
  .node ⟨0, "Fun", none, ";xy@a", false⟩
    [.node ⟨1, "Semi", some "SEMI", ";", true⟩ [],
      .node ⟨2, "Body", none, "xy@a", false⟩
        [.node ⟨3, "Statement", none, "xy", false⟩
            [.node ⟨4, "Leaf", some "ID", "x", true⟩ [], .node ⟨5, "Leaf", some "ID", "y", true⟩ []],
          .node ⟨6, "Leaf", some "LABEL", "@a", true⟩ []]]

def tokenisedTree : Tree :=
  .node ⟨0, "FUN", none, "xy@a:", false⟩
    [.node ⟨1, "STMT", none, "xy", false⟩
        [.node ⟨2, "Leaf", some "ID", "x", true⟩ [], .node ⟨3, "Leaf", some "ID", "y", true⟩ []],
      .node ⟨4, "Leaf", some "AT", "@", true⟩ [], .node ⟨5, "Leaf", some "ID", "a", true⟩ [],
      .node ⟨6, "Leaf", some "COLON", ":", true⟩ []]

theorem verdict_labelledTree :
    scatteredSettings.SameContents gatheredSettings ∧
      Comparison.verdict ⟨.ofSettings scatteredSettings, some 1⟩ labelledTree tokenisedTree =
        Comparison.verdict ⟨.ofSettings gatheredSettings, some 1⟩ labelledTree tokenisedTree ∧
      (Side.ofSettings scatteredSettings.candidate).isWrapper "Body" (some "Fun") = true ∧
      (Side.ofSettings scatteredSettings.candidate).isWrapper "Body" (some "Object") = false := by
  have hside : SideSettings.SameContents {} {} := by constructor <;> decide
  have hcandidate : scatteredSettings.candidate.SameContents gatheredSettings.candidate := by
    constructor <;> decide
  have hsame : scatteredSettings.SameContents gatheredSettings :=
    ⟨rfl, by decide, by decide, hcandidate, hside⟩
  obtain ⟨hverdict, hwrapper⟩ := verdict_sameContents hsame (some 1) labelledTree tokenisedTree
  have hbody := hwrapper scatteredSettings.candidate "Body"
  refine ⟨hsame, hverdict, ?_, ?_⟩
  · rw [hbody]
    refine ⟨⟨⟨"Body", some "Class"⟩, by decide, rfl⟩, ?_⟩
    rintro _ ⟨⟩
    decide
  · rw [Bool.eq_false_iff, ne_eq, hbody]
    rintro ⟨-, hexcepted⟩
    exact hexcepted "Object" rfl (by decide)

end TreeAccord
