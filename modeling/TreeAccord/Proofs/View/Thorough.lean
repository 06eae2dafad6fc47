import TreeAccord.Proofs.View.Worth

/-! # Looking at everything

A side does not fetch texts that it has no rule for, and does not look for wrappers if it knows none.
Here the same questions are asked without such shortcuts: each text is fetched, each table is
searched, and the joints between neighbours are counted apart from the children themselves. The
answers are the same. -/

namespace TreeAccord

/-! ## Tables that hold nothing -/

namespace Side

variable {p : Side}

theorem isNoiseText_eq_false (h : p.hasNoiseTexts = false) (text : String) :
    p.isNoiseText text = false := by
  have hnone : p.settings.irrelevantTexts = [] := by simpa [hasNoiseTexts] using h
  simp [isNoiseText, hnone]

theorem isWrapper_eq_false (h : p.hasWrappers = false) (rule : String) (parent? : Option String) :
    p.isWrapper rule parent? = false := by
  have hnone : p.exceptions = [] := by simpa [hasWrappers] using h
  simp [isWrapper, hnone, Groups.find?]

theorem fuses_of_textless (textless : p.inspectsText = false) (first second : String) :
    p.fuses first second = false := by
  obtain ⟨-, -, -, noPairs, -⟩ := p.inspectsText_eq_false_iff.mp textless
  simp [fuses, noPairs]

theorem foldsInto_of_textless (textless : p.inspectsText = false) (sigil nextRule : String) :
    p.foldsInto sigil nextRule = false := by
  obtain ⟨-, -, -, -, noFolds⟩ := p.inspectsText_eq_false_iff.mp textless
  simp [foldsInto, noFolds]

end Side

namespace View

/-! ## The questions without shortcuts -/

namespace Thorough

def isNoise (p : Side) (l : Label) : Bool :=
  p.isNoiseRule l.rule || l.kind?.any p.isNoiseKind || p.isNoiseText l.text

def holdsTerminal (p : Side) : List Tree → Bool
  | [] => false
  | .node l cs :: ts =>
    !isNoise p l && (!p.isBlockRule l.rule && l.terminal || holdsTerminal p cs)
      || holdsTerminal p ts

def visible (p : Side) (t : Tree) : Bool :=
  !isNoise p t.label && (!p.isBlockRule t.rule || holdsTerminal p t.children)

def transparent (p : Side) (parent? : Option String) (t : Tree) : Bool :=
  p.isWrapper t.rule parent?

/-- How many tokens the other side saves where the second tree follows the first: one if it fuses the
two, and one if it folds the second into a sigil. -/
def saved (p : Side) (t next : Tree) : Int :=
  (if p.fuses t.text next.text then 1 else 0)
    + (if t.terminal && p.foldsInto t.text next.rule then 1 else 0)

/-- What is saved between each two neighbours. -/
def savings (p : Side) : List Tree → Int
  | t :: next :: ts => saved p t next + savings p (next :: ts)
  | [_] => 0
  | [] => 0

mutual
def arity (p : Side) : Tree → Nat
  | .node l cs => (contributions p l.rule cs - savings p cs).toNat

/-- What the children of a node of rule `parent` contribute one by one. -/
def contributions (p : Side) (parent : String) : List Tree → Int
  | [] => 0
  | t :: ts =>
    1 - (if visible p t then 0 else 1)
      + (if transparent p (some parent) t then (arity p t : Int) - 1 else 0)
      + p.extraTokens t.text t.terminal
      + contributions p parent ts
end

theorem savings_cons (p : Side) (t : Tree) (ts : List Tree) :
    savings p (t :: ts) = (ts.head?.map (saved p t)).getD 0 + savings p ts := by
  cases ts <;> simp [savings]

end Thorough

/-! ## The same answers -/

variable (p : Side)

theorem isNoise_eq_thorough (l : Label) : isNoise p l = Thorough.isNoise p l := by
  rw [isNoise, Thorough.isNoise]
  cases h : p.hasNoiseTexts with
  | true => rfl
  | false => rw [p.isNoiseText_eq_false h, Bool.and_false]

theorem holdsTerminal_eq_thorough :
    ∀ ts : List Tree, holdsTerminal p ts = Thorough.holdsTerminal p ts
  | [] => by rw [holdsTerminal, Thorough.holdsTerminal]
  | .node l cs :: ts => by
    rw [holdsTerminal, Thorough.holdsTerminal, isNoise_eq_thorough, holdsTerminal_eq_thorough cs,
      holdsTerminal_eq_thorough ts]

theorem visible_eq_thorough (t : Tree) : visible p t = Thorough.visible p t := by
  rw [visible, Thorough.visible, isNoise_eq_thorough, holdsTerminal_eq_thorough]

theorem transparent_eq_thorough (parent? : Option String) (t : Tree) :
    transparent p parent? t = Thorough.transparent p parent? t := by
  rw [transparent, Thorough.transparent]
  cases h : p.hasWrappers with
  | true => rfl
  | false => rw [p.isWrapper_eq_false h, Bool.and_false]

/-- The correction for a text is what is split off it, less what is saved at the joint behind it. -/
theorem textCorrection_eq_thorough (t : Tree) (next? : Option Tree) :
    textCorrection p t next? =
      p.extraTokens t.text t.terminal - (next?.map (Thorough.saved p t)).getD 0 := by
  rw [textCorrection]
  cases h : p.inspectsText with
  | true =>
      rw [if_pos rfl]
      cases next? with
      | none => simp
      | some next =>
          simp only [Option.any_some, Option.map_some, Option.getD_some, Thorough.saved]
          omega
  | false =>
      rw [if_neg Bool.false_ne_true, extraTokens_of_textless h]
      cases next? with
      | none => rfl
      | some next =>
          simp [Thorough.saved, p.fuses_of_textless h, p.foldsInto_of_textless h]

mutual
theorem arity_eq_thorough : ∀ t : Tree, arity p t = Thorough.arity p t
  | .node l cs => by rw [arity, Thorough.arity, tally_eq_thorough l.rule cs]

theorem tally_eq_thorough (parent : String) : ∀ ts : List Tree,
    tally p parent ts = Thorough.contributions p parent ts - Thorough.savings p ts
  | [] => by
    rw [tally, Thorough.contributions]
    rfl
  | t :: ts => by
    rw [tally, Thorough.contributions, Thorough.savings_cons, visible_eq_thorough,
      transparent_eq_thorough, textCorrection_eq_thorough, arity_eq_thorough t,
      tally_eq_thorough parent ts]
    omega
end

/-- Whatever a side is set to, its shortcuts never show: of every node it says the same about being
visible, being a wrapper below any parent, and its arity, as if it looked at every text, searched every
table and went through all children and all neighbours among them. -/
theorem answers_thorough (s : SideSettings) :
    (∀ t, visible (.ofSettings s) t = Thorough.visible (.ofSettings s) t) ∧
      (∀ parent? t, transparent (.ofSettings s) parent? t =
        Thorough.transparent (.ofSettings s) parent? t) ∧
      ∀ t, arity (.ofSettings s) t = Thorough.arity (.ofSettings s) t :=
  ⟨visible_eq_thorough _, transparent_eq_thorough _, arity_eq_thorough _⟩

end View

end TreeAccord
