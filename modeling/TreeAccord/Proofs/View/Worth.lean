import TreeAccord.View.Arity

/-! # What children are worth

A child is counted for what it stands for, and then one is taken off again if it is noise. For noise
that stands for one node this comes out at nothing. Noise that is an empty wrapper takes off one more
than it brings, at the cost of its neighbours, and noise whose text is split brings more than is taken
off. -/

namespace TreeAccord

/-- The side neither fuses neighbours nor folds a node into the sigil before it, so what a child adds
does not depend on the next one. -/
structure Side.Unjoined (p : Side) : Prop where
  noPairs : p.settings.fusedPairs = []
  noFolds : p.settings.sigilFolds = []

namespace View

/-- How many nodes a child below a node of rule `parent` stands for, be it noise or not: a wrapper for
its own arity, any other node for itself, and both for the tokens that are split off their texts. -/
def worth (p : Side) (parent : String) (t : Tree) : Nat :=
  (if transparent p (some parent) t then arity p t else 1) + p.extraTokens t.text t.terminal

/-- How many nodes trees side by side stand for. -/
def totalWorth (p : Side) (parent : String) : List Tree → Nat
  | [] => 0
  | t :: ts => worth p parent t + totalWorth p parent ts

/-- The children that are noise. -/
def noise (p : Side) (t : Tree) : List Tree := t.children.filter fun u => !visible p u

/-! ## The text of a child -/

theorem extraTokens_of_textless {p : Side} (textless : p.inspectsText = false) (text : String)
    (terminal : Bool) : p.extraTokens text terminal = 0 := by
  obtain ⟨-, noTokens, noSigils, -⟩ := p.inspectsText_eq_false_iff.mp textless
  simp [Side.extraTokens, noTokens, noSigils]

/-- Without fused pairs and folds, the text of a child only adds what is split off it. -/
theorem textCorrection_of_unjoined {p : Side} (unjoined : p.Unjoined) (t : Tree)
    (next? : Option Tree) : textCorrection p t next? = p.extraTokens t.text t.terminal := by
  have hfuses : ∀ next, p.fuses t.text next = false := by simp [Side.fuses, unjoined.noPairs]
  have hfolds : ∀ rule, p.foldsInto t.text rule = false := by
    simp [Side.foldsInto, unjoined.noFolds]
  rw [textCorrection]
  split
  · simp [hfuses, hfolds]
  · rename_i textless
    rw [extraTokens_of_textless (by simpa using textless)]
    rfl

/-! ## Sums over the children -/

section

variable {p : Side} (unjoined : p.Unjoined)
include unjoined

theorem tally_cons_of_unjoined (parent : String) (t : Tree) (ts : List Tree) :
    tally p parent (t :: ts) =
      (worth p parent t : Int) - (if visible p t then 0 else 1) + tally p parent ts := by
  rw [tally_cons, textCorrection_of_unjoined unjoined, worth]
  by_cases hwrapper : transparent p (some parent) t = true
  · simp only [hwrapper, if_true]
    omega
  · simp only [hwrapper, Bool.false_eq_true, if_false]
    omega

theorem tally_eq_totalWorth_sub (parent : String) (ts : List Tree) :
    tally p parent ts =
      (totalWorth p parent (ts.filter (visible p)) : Int)
        + totalWorth p parent (ts.filter fun u => !visible p u)
        - (ts.filter fun u => !visible p u).length := by
  induction ts with
  | nil => rfl
  | cons t ts ih =>
      rw [tally_cons_of_unjoined unjoined, ih]
      by_cases hv : visible p t = true
      · simp only [hv, if_true, List.filter_cons, Bool.not_true, Bool.false_eq_true, if_false,
          totalWorth]
        omega
      · simp only [hv, List.filter_cons, Bool.false_eq_true, if_false, Bool.not_false, if_true,
          totalWorth, List.length_cons]
        omega

/-- The arity is what all children are worth, less one for each that is noise. -/
theorem arity_eq_totalWorth_sub (t : Tree) :
    arity p t =
      totalWorth p t.rule (t.children.filter (visible p)) + totalWorth p t.rule (noise p t)
        - (noise p t).length := by
  rw [arity_eq, tally_eq_totalWorth_sub unjoined, noise]
  omega

end

/-- On a side that fuses and folds nothing, the arity of a node is the worth of its visible children
exactly if the noise among its children is worth what is taken off for it, one for each, or if nothing
visible is worth anything and the noise is worth no more. -/
theorem arity_eq_visible_worth_iff {p : Side} (noPairs : p.settings.fusedPairs = [])
    (noFolds : p.settings.sigilFolds = []) (t : Tree) :
    arity p t = totalWorth p t.rule (t.children.filter (visible p)) ↔
      totalWorth p t.rule (noise p t) = (noise p t).length ∨
        totalWorth p t.rule (t.children.filter (visible p)) = 0 ∧
          totalWorth p t.rule (noise p t) ≤ (noise p t).length := by
  rw [arity_eq_totalWorth_sub ⟨noPairs, noFolds⟩]
  omega

/-! ### Noise in several roles -/

/-- Bodies are wrappers, semicolons and comments are noise, and sigils are split off. -/
def sigilSide : Side := .ofSettings {
  irrelevantRules := ["Comment"]
  irrelevantTexts := [";"]
  wrappers := [⟨"Body", none⟩]
  splitTokens := ["?::"]
  splitSigils := ["@"] }

/-- A comment, a label, a body of two names, and a token for two. -/
def labelledFunction : Tree :=
  .node ⟨0, "Fun", none, "/**/l@xy?::", false⟩
    [.node ⟨1, "Comment", some "COMMENT", "/**/", true⟩ [],
      .node ⟨2, "Leaf", some "LABEL", "l@", true⟩ [],
      .node ⟨3, "Body", none, "xy", false⟩
        [.node ⟨4, "Leaf", some "ID", "x", true⟩ [], .node ⟨5, "Leaf", some "ID", "y", true⟩ []],
      .node ⟨6, "Leaf", some "OP", "?::", true⟩ []]

theorem arity_labelledFunction :
    sigilSide.settings.fusedPairs = [] ∧ sigilSide.settings.sigilFolds = [] ∧
      totalWorth sigilSide "Fun" (noise sigilSide labelledFunction) =
        (noise sigilSide labelledFunction).length ∧
      arity sigilSide labelledFunction =
        totalWorth sigilSide "Fun" (labelledFunction.children.filter (visible sigilSide)) := by
  have hnoise : totalWorth sigilSide "Fun" (noise sigilSide labelledFunction) =
      (noise sigilSide labelledFunction).length := by decide
  exact ⟨rfl, rfl, hnoise, (arity_eq_visible_worth_iff rfl rfl labelledFunction).mpr (.inl hnoise)⟩

/-- A pair of names, and a body with nothing in it but a semicolon. -/
def bodylessFunction : Tree :=
  .node ⟨1, "Fun", none, "xy;", false⟩
    [.node ⟨2, "Pair", none, "xy", false⟩
        [.node ⟨3, "Leaf", some "ID", "x", true⟩ [], .node ⟨4, "Leaf", some "ID", "y", true⟩ []],
      .node ⟨5, "Body", none, ";", false⟩ [.node ⟨6, "Leaf", some "SEMI", ";", true⟩ []]]

/-- Nothing but a comment, which ends with a sigil. -/
def commentedNote : Tree :=
  .node ⟨7, "Note", none, "//@", false⟩ [.node ⟨8, "Comment", some "TEXT", "//@", true⟩ []]

/-- The body is noise by its text and empty as a wrapper, so the pair is not counted either. The comment
is noise, but the sigil at its end is counted. -/
theorem arity_noise_miscounted :
    sigilSide.settings.fusedPairs = [] ∧ sigilSide.settings.sigilFolds = [] ∧
      (arity sigilSide bodylessFunction = 0 ∧
        totalWorth sigilSide "Fun" (bodylessFunction.children.filter (visible sigilSide)) = 1) ∧
      (arity sigilSide commentedNote = 1 ∧
        totalWorth sigilSide "Note" (commentedNote.children.filter (visible sigilSide)) = 0) := by
  exact ⟨rfl, rfl, ⟨by decide, by decide⟩, by decide, by decide⟩

end View

end TreeAccord
