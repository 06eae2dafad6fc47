import TreeAccord.Compare.Divergence
import TreeAccord.Config.Concordance
import TreeAccord.View.Exposure

/-!
# Comparing two trees

A candidate and a reference are walked in lockstep. At each pair, in this order: a pair below the
depth limit diverges; a waived pair agrees as a whole; the names have to correspond where the
policy checks them; the arities have to be equal; and then the exposed nodes are compared one by
one, no more of them than the arity. The first divergence ends the run.

The rules of the reference nodes from the top down to the pair at hand are kept on a path, which is
copied into a divergence. A run returns the steps it took beside its verdict.
-/

namespace TreeAccord

open View

structure Comparison where
  concordance : Concordance
  depthLimit? : Option Nat := none

/-- One event of a run. -/
inductive Step where
  /-- A pair is taken up at a depth. -/
  | enter (depth : Nat) (candidate reference : Tree)
  /-- The pair is accepted without a look inside. -/
  | waive (candidate reference : Tree)
  /-- The arities of the pair are found. -/
  | count (candidate reference : Tree) (candidateArity referenceArity : Nat)
  /-- The pair is found to agree. -/
  | settle (candidate reference : Tree)

/-- The steps of a comparison and what it found. -/
structure Run where
  steps : List Step
  verdict : Verdict

/-- The run with earlier steps in front. -/
def Run.after (steps : List Step) (run : Run) : Run := { run with steps := steps ++ run.steps }

/-- A run and the path as it was left. A pair that agrees leaves the path as it found it. -/
structure Tracked where
  run : Run
  path : Array String

namespace Tracked

def after (steps : List Step) (tracked : Tracked) : Tracked :=
  { tracked with run := tracked.run.after steps }

/-- A first run, and if it agrees a second one on the path that it left. -/
def andThen (first : Tracked) (second : Array String → Tracked) : Tracked :=
  match first.run.verdict with
  | .agree => (second first.path).after first.run.steps
  | .diverge _ => first

end Tracked

namespace Comparison

/-- Whether the names of a pair correspond. Two terminals always do, a terminal and another node
never. -/
def namesAgree (k : Concordance) (c r : Tree) : Bool :=
  match c.terminal, r.terminal with
  | true, true => true
  | false, false => k.equates c.rule r.rule
  | _, _ => false

/-- The steps of a run that ends in agreement at the pair on top of the path. -/
def succeed (steps : List Step) (path : Array String) : Tracked := ⟨⟨steps, .agree⟩, path.pop⟩

/-- The steps of a run that ends in a divergence at the pair on top of the path. -/
def fail (steps : List Step) (c r : Tree) (cause : Cause) (path : Array String) : Tracked :=
  ⟨⟨steps, .diverge ⟨cause, c.rule, r.rule, path.toList⟩⟩, path⟩

variable (s : Comparison)

/-- Whether a depth lies below the limit. -/
def tooDeep? (depth : Nat) : Option Nat := s.depthLimit?.filter (· < depth)

mutual
/-- Compares a pair at the given depth, below the pairs of the path. -/
def track (depth : Nat) (c r : Tree) (path : Array String) : Tracked :=
  let path := path.push r.rule
  let enter := Step.enter depth c r
  match s.tooDeep? depth with
  | some limit => fail [enter] c r (.depthLimit limit) path
  | none =>
    if s.concordance.waives c.rule r.rule then
      succeed [enter, .waive c r, .settle c r] path
    else if s.concordance.namePolicy.checks depth && !namesAgree s.concordance c r then
      fail [enter] c r .ruleNames path
    else
      let m := arity s.concordance.candidate c
      let n := arity s.concordance.reference r
      if m = n then
        (trackBelow depth c r m (.before c) (.before r) path).after [enter, .count c r m n]
      else fail [enter, .count c r m n] c r (.childCount m n) path
termination_by 2 * c.size
decreasing_by
  have := Cursor.weight_before c
  omega

/-- Compares what two cursors expose below the pair `c` and `r` on top of the path, at most `budget`
nodes. -/
def trackBelow (depth : Nat) (c r : Tree) (budget : Nat) (left right : Cursor)
    (path : Array String) : Tracked :=
  match budget with
  | 0 => succeed [.settle c r] path
  | budget + 1 =>
    match _h : left.advance s.concordance.candidate,
        right.advance s.concordance.reference with
    | (none, _), (none, _) => succeed [.settle c r] path
    | (none, _), (some _, _) => fail [] c r .candidateExhausted path
    | (some _, _), (none, _) => fail [] c r .referenceExhausted path
    | (some a, left), (some b, right) =>
      (track (depth + 1) a b path).andThen fun path =>
        trackBelow depth c r budget left right path
termination_by 2 * left.weight + 1
decreasing_by
  all_goals
    have := Cursor.weight_advance _h
    have := a.size_pos
    omega
end

/-- Compares two trees from the top. -/
def run (c r : Tree) : Run := (s.track 0 c r #[]).run

def verdict (c r : Tree) : Verdict := (s.run c r).verdict

/-- Whether two trees agree. -/
def accepts (c r : Tree) : Bool := (s.verdict c r).isAgreement

end Comparison

/-! ## The log of a run -/

/-- The line that a step writes, if it writes one. -/
def Step.line? : Step → Option String
  | .enter .. => none
  | .waive c r => some ("TRACE: " ++ c.rule ++ " ~ " ++ r.rule ++ ": incomparable, accepted")
  | .count c r m n =>
    some ("TRACE: " ++ c.rule ++ " ~ " ++ r.rule ++ ": " ++ m.repr ++ " / " ++ n.repr ++ " children")
  | .settle .. => none

/-- What a run logs: its steps, and the divergence at the end. -/
def Run.log (run : Run) : List String :=
  run.steps.filterMap Step.line? ++
    match run.verdict with
    | .agree => []
    | .diverge d => ["DEBUG: trees differ: " ++ d.message]

end TreeAccord
