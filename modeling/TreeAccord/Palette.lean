/-!
# Terminal colors

The escape sequences that color an output, or nothing where color is off: green for passing
verdicts and token texts, red for failures, blue for rule names, dim for token kinds.
-/

namespace TreeAccord

structure Palette where
  green : String
  red : String
  blue : String
  dim : String
  reset : String
deriving DecidableEq, Repr

namespace Palette

/-- The sequences of a color terminal. -/
def ansi : Palette where
  green := "\x1b[32m"
  red := "\x1b[31m"
  blue := "\x1b[34m"
  dim := "\x1b[2m"
  reset := "\x1b[0m"

/-- No color: every sequence is empty. -/
def plain : Palette := ⟨"", "", "", "", ""⟩

instance : Inhabited Palette := ⟨plain⟩

def ofFlag (colored : Bool) : Palette := if colored then ansi else plain

end Palette

end TreeAccord
