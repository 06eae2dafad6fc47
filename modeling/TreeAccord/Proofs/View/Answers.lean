import TreeAccord.Proofs.Config.Contents
import TreeAccord.View.Exposure

/-! # What a side sees is what it answers

The view of a tree asks its side questions and never looks at the tables behind them. So sides that
answer alike see every tree alike, down to the nodes that they expose. -/

namespace TreeAccord.Side.Alike

open View

variable {p q : Side}

theorem isNoise_eq (h : p.Alike q) (l : Label) : isNoise p l = isNoise q l := by
  have hkind : p.isNoiseKind = q.isNoiseKind := funext h.isNoiseKind
  rw [isNoise, isNoise, h.isNoiseRule, hkind, h.hasNoiseTexts, h.isNoiseText]

theorem holdsTerminal_eq (h : p.Alike q) :
    ∀ ts : List Tree, holdsTerminal p ts = holdsTerminal q ts
  | [] => by rw [holdsTerminal, holdsTerminal]
  | .node l cs :: ts => by
    rw [holdsTerminal, holdsTerminal, h.isNoise_eq, h.isBlockRule, holdsTerminal_eq h cs,
      holdsTerminal_eq h ts]

theorem visible_eq (h : p.Alike q) : visible p = visible q := by
  funext t
  rw [visible, visible, h.isNoise_eq, h.isBlockRule, h.holdsTerminal_eq]

theorem transparent_eq (h : p.Alike q) (parent? : Option String) (t : Tree) :
    transparent p parent? t = transparent q parent? t := by
  rw [transparent, transparent, h.hasWrappers, h.isWrapper]

theorem textCorrection_eq (h : p.Alike q) (t : Tree) (next? : Option Tree) :
    textCorrection p t next? = textCorrection q t next? := by
  have hfuses : p.fuses t.text = q.fuses t.text := funext (h.fuses t.text)
  have hfolds : p.foldsInto t.text = q.foldsInto t.text := funext (h.foldsInto t.text)
  rw [textCorrection, textCorrection, h.inspectsText, h.extraTokens, hfuses, hfolds]

mutual
theorem arity_eq (h : p.Alike q) : ∀ t : Tree, arity p t = arity q t
  | .node l cs => by rw [arity, arity, tally_eq h l.rule cs]

theorem tally_eq (h : p.Alike q) (parent : String) :
    ∀ ts : List Tree, tally p parent ts = tally q parent ts
  | [] => by rw [tally, tally]
  | t :: ts => by
    rw [tally_cons, tally_cons, h.visible_eq, h.transparent_eq, arity_eq h t, h.textCorrection_eq,
      tally_eq h parent ts]
end

mutual
theorem hollow_eq (h : p.Alike q) : ∀ t : Tree, hollow p t = hollow q t
  | .node l cs => by rw [hollow, hollow, h.isListRule, h.arity_eq, firstHollow_eq h cs]

theorem firstHollow_eq (h : p.Alike q) : ∀ ts : List Tree, firstHollow p ts = firstHollow q ts
  | [] => by rw [firstHollow, firstHollow]
  | t :: ts => by
    rw [firstHollow, firstHollow, h.visible_eq, hollow_eq h t, firstHollow_eq h ts]
end

mutual
theorem core_eq (h : p.Alike q) : ∀ t : Tree, core p t = core q t
  | .node l cs => by rw [core, core, h.arity_eq, firstCore_eq h (.node l cs) cs]

theorem firstCore_eq (h : p.Alike q) (self : Tree) :
    ∀ ts : List Tree, firstCore p self ts = firstCore q self ts
  | [] => by rw [firstCore, firstCore]
  | t :: ts => by
    rw [firstCore, firstCore, h.visible_eq, core_eq h t, firstCore_eq h self ts]
end

theorem solid_eq (h : p.Alike q) : solid p = solid q := by
  funext t
  rw [solid, solid, h.visible_eq, h.hollow_eq]

theorem standIns_eq (h : p.Alike q) (parent : String) : standIns p parent = standIns q parent := by
  have hcore : core p = core q := funext h.core_eq
  funext t
  rw [standIns, standIns, h.transparent_eq, h.solid_eq, hcore]

theorem exposed_eq (h : p.Alike q) (t : Tree) : exposed p t = exposed q t := by
  rw [exposed, exposed, h.solid_eq, h.standIns_eq]

end TreeAccord.Side.Alike
