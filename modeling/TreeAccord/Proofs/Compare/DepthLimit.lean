import TreeAccord.Proofs.Compare.Origin

/-! # The depth limit

A limit ends a run at the first pair that lies too deep, and up to that pair it makes no difference.
The pair lies one level below the limit, so it is found only in trees that are high enough. -/

namespace TreeAccord

open View

/-! ## Verdicts under two limits -/

namespace Verdict

/-- The run ended at a depth limit. -/
def IsTooDeep (v : Verdict) : Prop := ∃ d limit, v = .diverge d ∧ d.cause = .depthLimit limit

/-- The first run found what the second one did, unless it ended at a limit. -/
inductive CutOff (v : Verdict) : Verdict → Prop where
  | same : CutOff v v
  | tooDeep (h : v.IsTooDeep) (w : Verdict) : CutOff v w

variable {v w v' w' : Verdict}

theorem IsTooDeep.below (h : v.IsTooDeep) (rule : String) : (v.below rule).IsTooDeep := by
  obtain ⟨d, limit, rfl, hcause⟩ := h
  exact ⟨d.below rule, limit, rfl, hcause⟩

theorem IsTooDeep.andThen (h : v.IsTooDeep) (v' : Verdict) : (v.andThen v').IsTooDeep := by
  obtain ⟨d, limit, rfl, hcause⟩ := h
  exact ⟨d, limit, rfl, hcause⟩

namespace CutOff

theorem below (h : CutOff v w) (rule : String) : CutOff (v.below rule) (w.below rule) := by
  cases h with
  | same => exact .same
  | tooDeep h w => exact .tooDeep (h.below rule) _

theorem andThen (h : CutOff v w) (h' : CutOff v' w') : CutOff (v.andThen v') (w.andThen w') := by
  cases h with
  | same =>
      cases v with
      | agree => exact h'
      | diverge d => exact .same
  | tooDeep h w => exact .tooDeep (h.andThen v') _

theorem eq_of_not_isTooDeep (h : CutOff v w) (hv : ¬v.IsTooDeep) : w = v := by
  cases h with
  | same => rfl
  | tooDeep h w => exact absurd h hv

end CutOff

end Verdict

namespace Comparison

/-! ## Runs under two limits -/

theorem tooDeep?_eq_none_iff (k : Concordance) (limit depth : Nat) :
    tooDeep? ⟨k, some limit⟩ depth = none ↔ depth ≤ limit := by
  simp [tooDeep?]

/-- Where the stricter limit allows a pair, the looser one does, and the pair goes through the same
checks. -/
theorem cutOff_compare {k : Concordance} {limit? limit'? : Option Nat}
    (looser : ∀ depth, tooDeep? ⟨k, limit?⟩ depth = none → tooDeep? ⟨k, limit'?⟩ depth = none)
    (depth : Nat) (c r : Tree) :
    Verdict.CutOff (compare ⟨k, limit?⟩ depth c r).verdict
      (compare ⟨k, limit'?⟩ depth c r).verdict := by
  induction c using exposed_induction k.candidate generalizing depth r with
  | step c ih =>
      have hshape : Verdict.CutOff (shapeVerdict ⟨k, limit?⟩ depth c r)
          (shapeVerdict ⟨k, limit'?⟩ depth c r) := by
        by_cases harity : arity k.candidate c = arity k.reference r
        · rw [shapeVerdict_of_eq harity, shapeVerdict_of_eq harity]
          exact verdict_meet_rel (fun _ => .same) .andThen
            (fun a ha b _ => (ih a ha (depth + 1) b).below r.rule) _
        · rw [shapeVerdict_of_ne harity, shapeVerdict_of_ne harity]
          exact .same
      rw [verdict_compare]
      cases hdeep : tooDeep? ⟨k, limit?⟩ depth with
      | some limit => exact .tooDeep ⟨_, limit, rfl, rfl⟩ _
      | none =>
          rw [verdict_compare, looser depth hdeep]
          dsimp only
          cases k.waives c.rule r.rule with
          | true => exact .same
          | false =>
              cases k.namePolicy.checks depth && !namesAgree k c r with
              | true => exact .same
              | false => exact hshape

/-! ## Runs that end at the limit -/

/-- From a pair that is at most one level too deep, the path leads just one level below the limit. -/
theorem Traced.length_path_of_tooDeep {s : Comparison} {depth : Nat} {c r : Tree} {d : Divergence}
    (h : s.Traced depth c r d) {limit : Nat} (cause : d.cause = .depthLimit limit) :
    s.depthLimit? = some limit ∧ (depth ≤ limit + 1 → depth + d.path.length = limit + 2) := by
  induction h with
  | here found tooDeep =>
      obtain ⟨hlimit, hlt⟩ := (s.tooDeep?_eq_some_iff).mp (tooDeep limit cause)
      exact ⟨hlimit, fun hle => congrArg (· + 1) (Nat.le_antisymm hle hlt)⟩
  | @deeper depth c r a b d within left right h ih =>
      obtain ⟨hlimit, hlength⟩ := ih cause
      refine ⟨hlimit, fun _ => ?_⟩
      have hdepth : depth ≤ limit := by
        by_contra hlt
        have hdeep := (s.tooDeep?_eq_some_iff).mpr ⟨hlimit, Nat.lt_of_not_le hlt⟩
        rw [within] at hdeep
        cases hdeep
      have hlength := hlength (Nat.succ_le_succ hdepth)
      rw [Divergence.below, List.length_cons]
      omega

end Comparison

/-- What a run finds within a limit, it finds under every higher limit and without one. If it ends at
the limit, it names that limit and a path of two more names; and it does not end there if one of the
two trees is no higher than the limit, or one level higher. -/
theorem verdict_depthLimit (k : Concordance) (limit : Nat) (c r : Tree) :
    (¬(Comparison.verdict ⟨k, some limit⟩ c r).IsTooDeep →
      (∀ limit', limit ≤ limit' → Comparison.verdict ⟨k, some limit'⟩ c r =
        Comparison.verdict ⟨k, some limit⟩ c r) ∧
      Comparison.verdict ⟨k, none⟩ c r = Comparison.verdict ⟨k, some limit⟩ c r) ∧
    (∀ d limit', Comparison.verdict ⟨k, some limit⟩ c r = .diverge d →
      d.cause = .depthLimit limit' → limit' = limit ∧ d.path.length = limit + 2) ∧
    (min c.height r.height ≤ limit + 1 →
      ¬(Comparison.verdict ⟨k, some limit⟩ c r).IsTooDeep) := by
  have hpath : ∀ d limit', Comparison.verdict ⟨k, some limit⟩ c r = .diverge d →
      d.cause = .depthLimit limit' → limit' = limit ∧ d.path.length = limit + 2 := by
    intro d limit' hd hcause
    rw [Comparison.verdict_eq] at hd
    obtain ⟨hlimit, hlength⟩ := (Comparison.traced_of_diverge hd).length_path_of_tooDeep hcause
    obtain rfl : limit = limit' := Option.some.inj hlimit
    exact ⟨rfl, by simpa using hlength (Nat.zero_le _)⟩
  refine ⟨fun hfound => ⟨fun limit' hle => ?_, ?_⟩, hpath, ?_⟩
  · rw [Comparison.verdict_eq] at hfound ⊢
    rw [Comparison.verdict_eq]
    refine (Comparison.cutOff_compare (fun depth hdepth => ?_) 0 c r).eq_of_not_isTooDeep hfound
    rw [Comparison.tooDeep?_eq_none_iff] at hdepth ⊢
    exact Nat.le_trans hdepth hle
  · rw [Comparison.verdict_eq] at hfound ⊢
    rw [Comparison.verdict_eq]
    exact (Comparison.cutOff_compare (fun _ _ => rfl) 0 c r).eq_of_not_isTooDeep hfound
  · rintro hlow ⟨d, limit', hd, hcause⟩
    obtain ⟨-, hlength⟩ := hpath d limit' hd hcause
    rw [Comparison.verdict_eq] at hd
    obtain ⟨hleft, hright⟩ := (Comparison.traced_of_diverge hd).length_path_le
    omega

end TreeAccord
