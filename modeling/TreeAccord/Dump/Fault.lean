import TreeAccord.Dump.Line

/-!
# Faults of a dump

What is wrong with a text that is no dump, and where.
-/

namespace TreeAccord.Dump

/-- A line of the source by its number and its bytes, from `start` up to but without `stop`. -/
structure Place where
  line : Nat
  start : Nat
  stop : Nat
deriving DecidableEq, Repr

def Line.place (line : Line) : Place := ⟨line.number, line.start, line.stop⟩

inductive Fault where
  /-- There is no root line. -/
  | empty
  /-- A line lies more than one level below the one before. -/
  | indentJump (place : Place) (previous depth : Nat)
  /-- A later line has no indentation. -/
  | orphanLine (place : Place)
  /-- The number of leading spaces is odd. -/
  | misalignedIndent (place : Place)
  /-- A line is nested under a token. -/
  | childOfToken (place : Place) (rule : String)
deriving DecidableEq, Repr

namespace Fault

/-- The offending line, if there is one. -/
def place? : Fault → Option Place
  | .empty => none
  | .indentJump place _ _ | .orphanLine place | .misalignedIndent place
  | .childOfToken place _ => some place

/-- The fault without the line it stands in. -/
def summary : Fault → String
  | .empty => "dump is empty"
  | .indentJump _ previous depth =>
    "indentation jumps from depth " ++ previous.repr ++ " to " ++ depth.repr
  | .orphanLine _ => "second top-level node after the root"
  | .misalignedIndent _ => "indentation is not a multiple of two spaces"
  | .childOfToken _ rule => "`" ++ rule ++ "` is nested under a token"

def message (fault : Fault) : String :=
  match fault.place? with
  | some place => "line " ++ place.line.repr ++ ": " ++ fault.summary
  | none => fault.summary

/-- The short note under the offending line. -/
def note : Fault → String
  | .empty => "no root line"
  | .indentJump .. => "skips an indentation level"
  | .orphanLine _ => "expected indentation under the root"
  | .misalignedIndent _ => "odd number of leading spaces"
  | .childOfToken .. => "tokens cannot have children"

end Fault

end TreeAccord.Dump
