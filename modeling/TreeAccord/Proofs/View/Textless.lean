import TreeAccord.Proofs.View.Headroom

/-! # Sides that look at no text

Such a side sees of a label no more than its rule, its kind and whether it is terminal, and it counts
the children of a node one by one. -/

namespace TreeAccord

/-- The side counts visible children, and nothing else. -/
structure Side.Plain (p : Side) : Prop where
  textless : p.inspectsText = false
  noWrappers : p.hasWrappers = false

/-- The labels differ at most in their rows and texts. -/
structure Label.Alike (l l' : Label) : Prop where
  rule : l.rule = l'.rule
  kind? : l.kind? = l'.kind?
  terminal : l.terminal = l'.terminal

namespace View

theorem holdsTerminal_append (p : Side) (ts us : List Tree) :
    holdsTerminal p (ts ++ us) = (holdsTerminal p ts || holdsTerminal p us) := by
  rw [holdsTerminal_eq_any, holdsTerminal_eq_any, holdsTerminal_eq_any, List.any_append]

section

variable {p : Side} (textless : p.inspectsText = false)
include textless

theorem hasNoiseTexts_eq_false : p.hasNoiseTexts = false := by
  obtain ⟨noTexts, -⟩ := p.inspectsText_eq_false_iff.mp textless
  simp [Side.hasNoiseTexts, noTexts]

theorem isNoise_of_alike {l l' : Label} (h : l.Alike l') : isNoise p l = isNoise p l' := by
  rw [isNoise, isNoise, h.rule, h.kind?, hasNoiseTexts_eq_false textless]
  rfl

theorem tally_append (parent : String) (ts us : List Tree) :
    tally p parent (ts ++ us) = tally p parent ts + tally p parent us := by
  induction ts with
  | nil => simp
  | cons t ts ih =>
      rw [List.cons_append, tally_cons_eq_share_add textless, tally_cons_eq_share_add textless, ih,
        Int.add_assoc]

/-- Where no child is a wrapper, the visible ones are counted. -/
theorem tally_eq_countP {parent : String} {ts : List Tree}
    (plain : ∀ t ∈ ts, transparent p (some parent) t = false) :
    tally p parent ts = ts.countP (visible p) := by
  induction ts with
  | nil => simp
  | cons t ts ih =>
      rw [tally_cons_eq_share_add textless, share, plain t List.mem_cons_self,
        ih fun u hu => plain u (List.mem_cons_of_mem t hu), List.countP_cons]
      cases visible p t <;> simp [Int.add_comm]

end

/-! ## Sides without wrappers -/

theorem transparent_eq_false {p : Side} (noWrappers : p.hasWrappers = false)
    (parent? : Option String) (t : Tree) : transparent p parent? t = false := by
  rw [transparent, noWrappers, Bool.false_and]

theorem arity_eq_countP {p : Side} (plain : p.Plain) (t : Tree) :
    arity p t = t.children.countP (visible p) := by
  rw [arity_eq, tally_eq_countP plain.textless fun u _ => transparent_eq_false plain.noWrappers _ u,
    Int.toNat_natCast]

end View

end TreeAccord
