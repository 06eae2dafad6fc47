import TreeAccord.Dump.Decode
import TreeAccord.Proofs.Compare.Lockstep
import TreeAccord.Proofs.Tree.Pushing
import Mathlib

/-! # A tree against itself

With both sides read alike, a tree has the names, arities and exposed nodes of itself at every pair.
Only the depth limit can stop such a run. -/

namespace TreeAccord

open View

/-! ## Verdicts that only a limit can spoil -/

/-- The verdict agrees, or it diverges at the depth limit. -/
inductive Verdict.OnlyTooDeep (limit? : Option Nat) : Verdict → Prop where
  | agree : OnlyTooDeep limit? .agree
  | tooDeep {limit : Nat} {d : Divergence} (limited : limit? = some limit)
      (cause : d.cause = .depthLimit limit) : OnlyTooDeep limit? (.diverge d)

namespace Verdict.OnlyTooDeep

variable {limit? : Option Nat} {v w : Verdict}

theorem below (h : OnlyTooDeep limit? v) (rule : String) : OnlyTooDeep limit? (v.below rule) := by
  cases h with
  | agree => exact .agree
  | tooDeep limited cause => exact .tooDeep limited cause

theorem andThen (h : OnlyTooDeep limit? v) (h' : OnlyTooDeep limit? w) :
    OnlyTooDeep limit? (v.andThen w) := by
  cases h with
  | agree => exact h'
  | tooDeep limited cause => exact .tooDeep limited cause

theorem eq_agree (h : OnlyTooDeep none v) : v = .agree := by
  cases h with
  | agree => rfl
  | tooDeep limited cause => cases limited

theorem eq_agree_or (h : OnlyTooDeep limit? v) :
    v = .agree ∨
      ∃ limit d, limit? = some limit ∧ v = .diverge d ∧ d.cause = .depthLimit limit := by
  cases h with
  | agree => exact .inl rfl
  | tooDeep limited cause => exact .inr ⟨_, _, limited, rfl, cause⟩

end Verdict.OnlyTooDeep

namespace Comparison

/-- A node has the name that it has, whatever is configured. -/
theorem namesAgree_self (k : Concordance) (t : Tree) : namesAgree k t t = true := by
  rw [namesAgree, Concordance.equates, beq_self_eq_true]
  cases t.terminal <;> rfl

variable {s : Comparison}

theorem onlyTooDeep_meet {depth : Nat} (c r : Tree) {ts : List Tree}
    (h : ∀ t ∈ ts, (s.compare (depth + 1) t t).verdict.OnlyTooDeep s.depthLimit?) (budget : Nat) :
    (s.meet depth c r budget ts ts).verdict.OnlyTooDeep s.depthLimit? := by
  induction budget generalizing ts with
  | zero => exact .agree
  | succ budget ih =>
      cases ts with
      | nil => exact .agree
      | cons t ts =>
          rw [meet, Run.verdict_andThen]
          exact ((h t List.mem_cons_self).below r.rule).andThen
            (ih fun t' ht => h t' (List.mem_cons_of_mem t ht))

/-- With one reading for both sides, the arities and the exposed nodes of a pair of equal trees are
equal, and so the run goes on in pairs of equal trees. -/
theorem onlyTooDeep_compare (same : s.concordance.candidate = s.concordance.reference)
    (depth : Nat) (t : Tree) : (s.compare depth t t).verdict.OnlyTooDeep s.depthLimit? := by
  induction t using exposed_induction s.concordance.candidate generalizing depth with
  | step t ih =>
      have hshape : (s.shapeVerdict depth t t).OnlyTooDeep s.depthLimit? := by
        rw [shapeVerdict_of_eq (by rw [same]), ← same]
        exact onlyTooDeep_meet t t (fun u hu => ih u hu (depth + 1)) _
      rw [verdict_compare, namesAgree_self, Bool.not_true, Bool.and_false]
      cases hdeep : s.tooDeep? depth with
      | some limit => exact .tooDeep ((s.tooDeep?_eq_some_iff).mp hdeep).1 rfl
      | none =>
          cases s.concordance.waives t.rule t.rule with
          | true => exact .agree
          | false => exact hshape

end Comparison

/-- The settings with one reading for both sides. -/
def Settings.withSides (s : Settings) (side : SideSettings) : Settings :=
  { s with candidate := side, reference := side }

/-- Two trees that are read from one text agree, whatever else is configured, as long as there is no
depth limit and both sides are read alike. With a limit they agree or the run ends at the limit. -/
theorem verdict_decoded_twice (s : Settings) (side : SideSettings) {rename : String → String}
    {source : String} {t u : NodeTable} (ht : Dump.decodeWith rename source = .ok t)
    (hu : Dump.decodeWith rename source = .ok u) :
    Comparison.verdict ⟨.ofSettings (s.withSides side), none⟩ t.tree u.tree = .agree ∧
      ∀ limit,
        Comparison.verdict ⟨.ofSettings (s.withSides side), some limit⟩ t.tree u.tree = .agree ∨
          ∃ d, Comparison.verdict ⟨.ofSettings (s.withSides side), some limit⟩ t.tree u.tree =
            .diverge d ∧ d.cause = .depthLimit limit := by
  have hsame : t = u := Except.ok.inj (ht.symm.trans hu)
  subst hsame
  have hself : ∀ limit?, (Comparison.verdict ⟨.ofSettings (s.withSides side), limit?⟩ t.tree
      t.tree).OnlyTooDeep limit? := by
    intro limit?
    rw [Comparison.verdict_eq]
    exact Comparison.onlyTooDeep_compare (s := ⟨_, limit?⟩) rfl 0 t.tree
  refine ⟨(hself none).eq_agree, ?_⟩
  intro limit
  rcases (hself (some limit)).eq_agree_or with hagree | ⟨limit', d, hlimit, hd, hcause⟩
  · exact .inl hagree
  · obtain rfl := Option.some.inj hlimit
    exact .inr ⟨d, hd, hcause⟩

/-! ### A sigil in front of a sum -/

/-- Sigils at the beginning of a token count for themselves. -/
def sigilSide : SideSettings where
  splitSigils := ["@"]

def annotatedTable : NodeTable where
  rows := #[⟨"File", none, none, [1, 2]⟩, ⟨"T", some ⟨"AT", "@A"⟩, some 0, []⟩,
    ⟨"Sum", none, some 0, [3, 4]⟩, ⟨"T", some ⟨"ID", "a"⟩, some 2, []⟩,
    ⟨"T", some ⟨"ID", "b"⟩, some 2, []⟩]
  forward := NodeTable.forward_of_forall (by decide)

/-- The file counts two nodes more than it exposes, on both sides alike. A limit of zero ends the run
at the sum. -/
theorem verdict_annotatedTable_twice :
    Dump.decodeWith id "File\n  T(AT)('@A')\n  Sum\n    T(ID)('a')\n    T(ID)('b')\n" =
        .ok annotatedTable ∧
      arity (.ofSettings sigilSide) annotatedTable.tree = 3 ∧
      (exposed (.ofSettings sigilSide) annotatedTable.tree).length = 1 ∧
      Comparison.verdict ⟨.ofSettings (Settings.withSides {} sigilSide), none⟩ annotatedTable.tree
        annotatedTable.tree = .agree ∧
      Comparison.verdict ⟨.ofSettings (Settings.withSides {} sigilSide), some 0⟩ annotatedTable.tree
        annotatedTable.tree = .diverge ⟨.depthLimit 0, "Sum", "Sum", ["File", "Sum"]⟩ := by
  have hread : Dump.decodeWith id
      "File\n  T(AT)('@A')\n  Sum\n    T(ID)('a')\n    T(ID)('b')\n" = .ok annotatedTable := rfl
  refine ⟨hread, by cbv, by cbv, ?_, by cbv⟩
  exact (verdict_decoded_twice {} sigilSide hread hread).1

end TreeAccord
