import TreeAccord.Text.Blank
import TreeAccord.Text.Bytes

/-!
# Lines of a dump

A text is cut at its line feeds, and a carriage return before the cut belongs to it. Lines keep
their number and their place in the source; blank lines are counted but hold no node.
-/

namespace TreeAccord.Dump

structure Line where
  /-- Counted from 1. -/
  number : Nat
  /-- The byte offset of the first character. -/
  start : Nat
  chars : List Char
deriving DecidableEq, Repr

/-- The byte offset just after the last character. -/
def Line.stop (line : Line) : Nat := line.start + Text.byteCount line.chars

/-- The pieces between line feeds, at least one. -/
def pieces (cs : List Char) : List (List Char) :=
  cs.foldr (fun c ps => if c = '\n' then [] :: ps else
    match ps with
    | [] => [[c]]
    | p :: ps => (c :: p) :: ps) [[]]

/-- A piece without one carriage return at its end. -/
def dropReturn (piece : List Char) : List Char :=
  if piece.getLast? = some '\r' then piece.dropLast else piece

/-- Numbers the pieces, the first one being line `number` at offset `start`. -/
def number (n start : Nat) : List (List Char) → List Line
  | [] => []
  | piece :: rest =>
    ⟨n, start, dropReturn piece⟩ :: number (n + 1) (start + Text.byteCount piece + 1) rest

/-- All lines of a source. -/
def lines (source : String) : List Line := number 1 0 (pieces source.toList)

def Line.isBlank (line : Line) : Bool := line.chars.all Text.isBlank

/-- The lines that hold a node. -/
def nodeLines (source : String) : List Line := (lines source).filter fun line => !line.isBlank

/-- The number of leading spaces. -/
def Line.spaces (line : Line) : Nat := (line.chars.takeWhile (· == ' ')).length

@[simp] theorem pieces_nil : pieces [] = [[]] := rfl

theorem pieces_ne_nil (cs : List Char) : pieces cs ≠ [] := by
  cases cs with
  | nil => simp
  | cons c rest =>
    simp only [pieces, List.foldr_cons]
    split
    · simp
    · split <;> simp

theorem pieces_lineFeed (cs : List Char) : pieces ('\n' :: cs) = [] :: pieces cs := by
  simp [pieces]

theorem pieces_cons {c : Char} (h : c ≠ '\n') (cs : List Char) :
    ∃ p ps, pieces cs = p :: ps ∧ pieces (c :: cs) = (c :: p) :: ps := by
  cases hp : pieces cs with
  | nil => exact absurd hp (pieces_ne_nil cs)
  | cons p ps =>
    refine ⟨p, ps, rfl, ?_⟩
    have : pieces (c :: cs) = (if c = '\n' then [] :: pieces cs else
        match pieces cs with
        | [] => [[c]]
        | p :: ps => (c :: p) :: ps) := rfl
    rw [this, hp]
    simp [h]

end TreeAccord.Dump
