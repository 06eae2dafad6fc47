import TreeAccord.Proofs.Config.Scan

/-! # Settings as sets

The look-up tables of a side keep the order in which settings are written, and gather the exceptions
of a wrapper from wherever they stand. What they answer depends on neither: every list is asked for its
members alone. Only the sigils of a text are counted, so that one that is written twice counts twice. -/

namespace TreeAccord

/-! ## Members -/

/-- Each list has the members of the other, in whatever order and however often. -/
def SameMembers {α : Type} (xs ys : List α) : Prop := xs ⊆ ys ∧ ys ⊆ xs

instance {α : Type} [DecidableEq α] (xs ys : List α) : Decidable (SameMembers xs ys) :=
  inferInstanceAs (Decidable (xs ⊆ ys ∧ ys ⊆ xs))

namespace SameMembers

variable {α : Type} {xs ys : List α} (h : SameMembers xs ys)
include h

theorem mem_iff (x : α) : x ∈ xs ↔ x ∈ ys := ⟨fun hx => h.1 hx, fun hx => h.2 hx⟩

theorem any_eq (f : α → Bool) : xs.any f = ys.any f := by
  rw [Bool.eq_iff_iff]
  simp only [List.any_eq_true, h.mem_iff]

theorem contains_eq [BEq α] [LawfulBEq α] (x : α) : xs.contains x = ys.contains x := by
  rw [Bool.eq_iff_iff]
  simp only [List.contains_iff_mem, h.mem_iff]

theorem isEmpty_eq : xs.isEmpty = ys.isEmpty := by
  rw [Bool.eq_iff_iff]
  simp only [List.isEmpty_iff, List.eq_nil_iff_forall_not_mem, h.mem_iff]

end SameMembers

/-- The settings of a side have the same members, list by list, and the same sigils equally often. -/
structure SideSettings.SameContents (s s' : SideSettings) : Prop where
  irrelevantRules : SameMembers s.irrelevantRules s'.irrelevantRules
  irrelevantRuleFragments : SameMembers s.irrelevantRuleFragments s'.irrelevantRuleFragments
  irrelevantTexts : SameMembers s.irrelevantTexts s'.irrelevantTexts
  irrelevantTokenKinds : SameMembers s.irrelevantTokenKinds s'.irrelevantTokenKinds
  emptyBlockRules : SameMembers s.emptyBlockRules s'.emptyBlockRules
  alwaysListRules : SameMembers s.alwaysListRules s'.alwaysListRules
  wrappers : SameMembers s.wrappers s'.wrappers
  splitTokens : SameMembers s.splitTokens s'.splitTokens
  splitSigils : s.splitSigils.Perm s'.splitSigils
  fusedPairs : SameMembers s.fusedPairs s'.fusedPairs
  sigilFolds : SameMembers s.sigilFolds s'.sigilFolds

/-- The settings have the same policy, the same pairs and the same contents of their sides. -/
structure Settings.SameContents (s s' : Settings) : Prop where
  namePolicy : s.namePolicy = s'.namePolicy
  equivalentRules : SameMembers s.equivalentRules s'.equivalentRules
  incomparableRules : SameMembers s.incomparableRules s'.incomparableRules
  candidate : s.candidate.SameContents s'.candidate
  reference : s.reference.SameContents s'.reference

/-! ## Wrappers and their exceptions -/

namespace Side

theorem find?_gather (g : Groups String) (w : Wrapper) (rule : String) :
    (gather g w).find? rule =
      if w.rule = rule then some ((g.find? rule).getD [] ++ w.unlessParent?.toList)
      else g.find? rule := by
  rw [gather]
  by_cases hrule : w.rule = rule
  · subst hrule
    rw [Groups.find?_alter_self, if_pos rfl]
  · rw [Groups.find?_alter_of_ne g hrule, if_neg hrule]

/-- A rule is found after some wrappers are gathered if it was there before or one of them names
it. -/
theorem isSome_find?_foldl_gather (wrappers : List Wrapper) (g : Groups String) (rule : String) :
    ((wrappers.foldl gather g).find? rule).isSome = true ↔
      (g.find? rule).isSome = true ∨ ∃ w ∈ wrappers, w.rule = rule := by
  induction wrappers generalizing g with
  | nil => simp
  | cons w wrappers ih =>
      rw [List.foldl_cons, ih, find?_gather]
      by_cases hrule : w.rule = rule <;> simp [hrule]

/-- A parent is an exception of a rule if it was one before or one of the wrappers says so. -/
theorem mem_find?_foldl_gather (wrappers : List Wrapper) (g : Groups String)
    (rule parent : String) :
    parent ∈ ((wrappers.foldl gather g).find? rule).getD [] ↔
      parent ∈ (g.find? rule).getD [] ∨ (⟨rule, some parent⟩ : Wrapper) ∈ wrappers := by
  induction wrappers generalizing g with
  | nil => simp
  | cons w wrappers ih =>
      obtain ⟨wrapped, unlessParent?⟩ := w
      rw [List.foldl_cons, ih, find?_gather]
      by_cases hrule : wrapped = rule
      · subst hrule
        simp [or_assoc, eq_comm]
      · simp [hrule, Ne.symm hrule]

/-- A rule is a wrapper if some entry names it, unless an entry that does so, wherever it stands,
excepts the parent. -/
theorem isWrapper_ofSettings_iff (s : SideSettings) (rule : String) (parent? : Option String) :
    (ofSettings s).isWrapper rule parent? = true ↔
      (∃ w ∈ s.wrappers, w.rule = rule) ∧
        ∀ parent, parent? = some parent → (⟨rule, some parent⟩ : Wrapper) ∉ s.wrappers := by
  have hnamed := isSome_find?_foldl_gather s.wrappers [] rule
  have hexcepted := mem_find?_foldl_gather s.wrappers [] rule
  simp only [Groups.find?, Option.isSome_none, Bool.false_eq_true, false_or, Option.getD_none,
    List.not_mem_nil] at hnamed hexcepted
  simp only [← hnamed, ← hexcepted, isWrapper, ofSettings]
  cases (s.wrappers.foldl gather []).find? rule with
  | none => simp
  | some parents => cases parent? <;> simp

theorem foldl_gather_eq_nil_iff (wrappers : List Wrapper) (g : Groups String) :
    wrappers.foldl gather g = [] ↔ g = [] ∧ wrappers = [] := by
  induction wrappers generalizing g with
  | nil => simp
  | cons w wrappers ih =>
      have hgather : gather g w ≠ [] := by
        rw [gather]
        cases g with
        | nil => simp [Groups.alter]
        | cons entry rest =>
            rw [Groups.alter]
            split <;> simp
      simp [ih, hgather]

theorem hasWrappers_ofSettings (s : SideSettings) :
    (ofSettings s).hasWrappers = !s.wrappers.isEmpty := by
  have hnil := foldl_gather_eq_nil_iff s.wrappers []
  rw [hasWrappers, ofSettings, Bool.eq_iff_iff]
  simp [hnil]

/-! ## Answers -/

/-- The sides answer every question alike. -/
structure Alike (p q : Side) : Prop where
  isNoiseRule : ∀ rule, p.isNoiseRule rule = q.isNoiseRule rule
  isNoiseText : ∀ text, p.isNoiseText text = q.isNoiseText text
  isNoiseKind : ∀ kind, p.isNoiseKind kind = q.isNoiseKind kind
  isBlockRule : ∀ rule, p.isBlockRule rule = q.isBlockRule rule
  isListRule : ∀ rule, p.isListRule rule = q.isListRule rule
  isWrapper : ∀ rule parent?, p.isWrapper rule parent? = q.isWrapper rule parent?
  extraTokens : ∀ text terminal, p.extraTokens text terminal = q.extraTokens text terminal
  fuses : ∀ first second, p.fuses first second = q.fuses first second
  foldsInto : ∀ sigil nextRule, p.foldsInto sigil nextRule = q.foldsInto sigil nextRule
  hasNoiseTexts : p.hasNoiseTexts = q.hasNoiseTexts
  hasWrappers : p.hasWrappers = q.hasWrappers
  inspectsText : p.inspectsText = q.inspectsText

theorem alike_of_sameContents {s s' : SideSettings} (h : s.SameContents s') :
    (ofSettings s).Alike (ofSettings s') where
  isNoiseRule rule := by
    simp only [isNoiseRule, ofSettings, h.irrelevantRules.contains_eq,
      h.irrelevantRuleFragments.any_eq]
  isNoiseText := h.irrelevantTexts.contains_eq
  isNoiseKind := h.irrelevantTokenKinds.contains_eq
  isBlockRule := h.emptyBlockRules.contains_eq
  isListRule := h.alwaysListRules.contains_eq
  isWrapper rule parent? := by
    rw [Bool.eq_iff_iff, isWrapper_ofSettings_iff, isWrapper_ofSettings_iff]
    simp only [h.wrappers.mem_iff]
  extraTokens text terminal := by
    have htokens : (ofSettings s).settings.splitTokens.contains text =
        (ofSettings s').settings.splitTokens.contains text := h.splitTokens.contains_eq text
    have hsigils : ((ofSettings s).settings.splitSigils.filter (isGlued text)).length =
        ((ofSettings s').settings.splitSigils.filter (isGlued text)).length :=
      (h.splitSigils.filter _).length_eq
    rw [extraTokens, extraTokens, htokens, hsigils]
  fuses first second := h.fusedPairs.contains_eq ⟨first, second⟩
  foldsInto sigil nextRule := h.sigilFolds.contains_eq ⟨sigil, nextRule⟩
  hasNoiseTexts := by
    simp only [hasNoiseTexts, ofSettings, h.irrelevantTexts.isEmpty_eq]
  hasWrappers := by
    rw [hasWrappers_ofSettings, hasWrappers_ofSettings, h.wrappers.isEmpty_eq]
  inspectsText := by
    simp only [inspectsText, ofSettings, h.irrelevantTexts.isEmpty_eq, h.splitTokens.isEmpty_eq,
      h.splitSigils.isEmpty_eq, h.fusedPairs.isEmpty_eq, h.sigilFolds.isEmpty_eq]

end Side

end TreeAccord
