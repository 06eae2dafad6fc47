/-!
# Divergences

Where two trees first differ, and how.
-/

namespace TreeAccord

inductive Cause where
  /-- The rules do not correspond. -/
  | ruleNames
  /-- The arities differ. -/
  | childCount (candidate reference : Nat)
  /-- The reference exposes a node where the candidate has none left. -/
  | candidateExhausted
  /-- The candidate exposes a node where the reference has none left. -/
  | referenceExhausted
  /-- The pair lies below the depth limit. -/
  | depthLimit (limit : Nat)
deriving DecidableEq, Repr

structure Divergence where
  cause : Cause
  candidateRule : String
  referenceRule : String
  /-- The rules of the reference nodes from the top down to the divergence. -/
  path : List String
deriving DecidableEq, Repr

namespace Divergence

def summary (d : Divergence) : String :=
  let c := "`" ++ d.candidateRule ++ "`"
  let r := "`" ++ d.referenceRule ++ "`"
  match d.cause with
  | .ruleNames => "rule names differ: " ++ c ++ " vs " ++ r
  | .childCount m n =>
    "child counts differ: " ++ c ++ " has " ++ m.repr ++ ", " ++ r ++ " has " ++ n.repr
  | .candidateExhausted => c ++ " ran out of children before " ++ r
  | .referenceExhausted => r ++ " ran out of children before " ++ c
  | .depthLimit limit => "nesting exceeds " ++ limit.repr ++ " levels at " ++ c ++ " / " ++ r

def message (d : Divergence) : String :=
  if d.path.isEmpty then d.summary else d.summary ++ "\n  at " ++ " > ".intercalate d.path

end Divergence

inductive Verdict where
  | agree
  | diverge (d : Divergence)
deriving DecidableEq, Repr

namespace Verdict

def isAgreement : Verdict → Bool
  | agree => true
  | diverge _ => false

end Verdict

end TreeAccord
