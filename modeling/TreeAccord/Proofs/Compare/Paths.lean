import TreeAccord.Compare.Comparison

/-! # The path of a run

A run keeps one path for all its pairs: a pair is put on it when it is taken up, and taken off when it
is found to agree. What is found at a pair does not depend on what the path holds. So a pair can be
compared by itself, with the path of a divergence put together on the way back up, and the run on the
path comes to the same steps and the same verdict. -/

namespace TreeAccord

open View

/-! ## Verdicts without the path above -/

/-- The divergence seen from a pair further up. -/
def Divergence.below (rule : String) (d : Divergence) : Divergence :=
  { d with path := rule :: d.path }

/-- The verdict seen from a pair further up. -/
def Verdict.below (rule : String) : Verdict → Verdict
  | agree => agree
  | diverge d => diverge (d.below rule)

@[simp] theorem Verdict.below_eq_agree_iff (rule : String) (v : Verdict) :
    v.below rule = agree ↔ v = agree := by
  cases v <;> simp [below]

/-- A first run, and if it agrees a second one. -/
def Run.andThen (first : Run) (second : Unit → Run) : Run :=
  match first.verdict with
  | .agree => (second ()).after first.steps
  | .diverge _ => first

namespace Comparison

/-- A divergence at the pair itself. -/
def divergeAt (c r : Tree) (cause : Cause) : Verdict :=
  .diverge ⟨cause, c.rule, r.rule, [r.rule]⟩

variable (s : Comparison)

mutual
/-- Compares a pair at the given depth by itself. -/
def compare (depth : Nat) (c r : Tree) : Run :=
  let enter := Step.enter depth c r
  match s.tooDeep? depth with
  | some limit => ⟨[enter], divergeAt c r (.depthLimit limit)⟩
  | none =>
    if s.concordance.waives c.rule r.rule then
      ⟨[enter, .waive c r, .settle c r], .agree⟩
    else if s.concordance.namePolicy.checks depth && !namesAgree s.concordance c r then
      ⟨[enter], divergeAt c r .ruleNames⟩
    else
      let m := arity s.concordance.candidate c
      let n := arity s.concordance.reference r
      if m = n then
        (walk depth c r m (.before c) (.before r)).after [enter, .count c r m n]
      else ⟨[enter, .count c r m n], divergeAt c r (.childCount m n)⟩
termination_by 2 * c.size
decreasing_by
  have := Cursor.weight_before c
  omega

/-- Compares what two cursors expose below the pair `c` and `r`, at most `budget` nodes. -/
def walk (depth : Nat) (c r : Tree) (budget : Nat) (left right : Cursor) : Run :=
  match budget with
  | 0 => ⟨[.settle c r], .agree⟩
  | budget + 1 =>
    match _h : left.advance s.concordance.candidate,
        right.advance s.concordance.reference with
    | (none, _), (none, _) => ⟨[.settle c r], .agree⟩
    | (none, _), (some _, _) => ⟨[], divergeAt c r .candidateExhausted⟩
    | (some _, _), (none, _) => ⟨[], divergeAt c r .referenceExhausted⟩
    | (some a, left), (some b, right) =>
      let inner := compare (depth + 1) a b
      Run.andThen ⟨inner.steps, inner.verdict.below r.rule⟩ fun _ =>
        walk depth c r budget left right
termination_by 2 * left.weight + 1
decreasing_by
  all_goals
    have := Cursor.weight_advance _h
    have := a.size_pos
    omega
end

end Comparison

/-! ## Runs on a path -/

/-- The run below the pairs of a path. A divergence is reported with the whole path, which is left as
it is then; agreement leaves the path as it was. -/
def Run.onto (run : Run) (path : Array String) : Tracked :=
  match run.verdict with
  | .agree => ⟨run, path⟩
  | .diverge d =>
    ⟨⟨run.steps, .diverge { d with path := path.toList ++ d.path }⟩, path ++ d.path⟩

theorem Run.onto_after (steps : List Step) (run : Run) (path : Array String) :
    (run.after steps).onto path = (run.onto path).after steps := by
  obtain ⟨taken, verdict⟩ := run
  cases verdict with
  | agree => rfl
  | diverge d => rfl

namespace Comparison

theorem succeed_push (steps : List Step) (rule : String) (path : Array String) :
    succeed steps (path.push rule) = Run.onto ⟨steps, .agree⟩ path := by
  rw [succeed, Array.pop_push]
  rfl

theorem fail_push (steps : List Step) (c r : Tree) (cause : Cause) (path : Array String) :
    fail steps c r cause (path.push r.rule) = Run.onto ⟨steps, divergeAt c r cause⟩ path := by
  simp [fail, divergeAt, Run.onto]

/-- What is found below a pair that stands on the path, seen from above the pair. -/
theorem andThen_onto {first : Run} {second : Unit → Run} {later : Array String → Tracked}
    {rule : String} {path : Array String} (h : later (path.push rule) = (second ()).onto path) :
    (first.onto (path.push rule)).andThen later =
      (Run.andThen ⟨first.steps, first.verdict.below rule⟩ second).onto path := by
  obtain ⟨steps, verdict⟩ := first
  cases verdict with
  | agree =>
      change (later (path.push rule)).after steps = ((second ()).after steps).onto path
      rw [h, Run.onto_after]
  | diverge d => simp [Run.onto, Run.andThen, Tracked.andThen, Verdict.below, Divergence.below]

variable (s : Comparison)

-- The two follow the recursion of the run: into a pair, and along what is exposed below it.
mutual
/-- A run on a path finds what the pair by itself comes to, and leaves the path accordingly. -/
theorem track_eq (depth : Nat) (c r : Tree) (path : Array String) :
    s.track depth c r path = (s.compare depth c r).onto path := by
  rw [track, compare]
  cases s.tooDeep? depth with
  | some limit => exact fail_push ..
  | none =>
      dsimp only
      split
      · exact succeed_push ..
      split
      · exact fail_push ..
      split
      · rw [trackBelow_eq, Run.onto_after]
      · exact fail_push ..
termination_by 2 * c.size
decreasing_by
  have := Cursor.weight_before c
  omega

/-- The pair itself is on top of the path until all that is exposed below it has been compared. -/
theorem trackBelow_eq (depth : Nat) (c r : Tree) (budget : Nat) (left right : Cursor)
    (path : Array String) :
    s.trackBelow depth c r budget left right (path.push r.rule) =
      (s.walk depth c r budget left right).onto path := by
  cases budget with
  | zero =>
      rw [trackBelow, walk]
      exact succeed_push ..
  | succ budget =>
      rw [trackBelow, walk]
      match hleft : left.advance s.concordance.candidate,
          right.advance s.concordance.reference with
      | (none, _), (none, _) => exact succeed_push ..
      | (none, _), (some _, _) => exact fail_push ..
      | (some _, _), (none, _) => exact fail_push ..
      | (some a, left'), (some b, right') =>
          simp only [track_eq (depth + 1) a b]
          exact andThen_onto (trackBelow_eq depth c r budget left' right' path)
termination_by 2 * left.weight + 1
decreasing_by
  all_goals
    have := Cursor.weight_advance hleft
    have := a.size_pos
    omega
end

/-- A comparison comes to what the topmost pair comes to by itself. -/
theorem run_eq (c r : Tree) : s.run c r = s.compare 0 c r := by
  rw [run, track_eq]
  obtain ⟨steps, verdict⟩ := s.compare 0 c r
  cases verdict with
  | agree => rfl
  | diverge d => rfl

theorem verdict_eq (c r : Tree) : s.verdict c r = (s.compare 0 c r).verdict :=
  congrArg Run.verdict (s.run_eq c r)

end Comparison

end TreeAccord
