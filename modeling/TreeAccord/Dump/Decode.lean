import TreeAccord.Dump.Entry
import TreeAccord.Dump.Fault
import TreeAccord.RuleName

/-!
# Reading a dump

The first line that is not blank names the root. Every later one is a node, indented two spaces
for each level below the root; it hangs below the nearest earlier line that lies one level higher.
The reader keeps the row of the latest node and goes up from there through the parents in the
table.
-/

namespace TreeAccord.Dump

/-- Why no table results: the text is at fault, or the table refuses a node. -/
inductive Failure where
  | fault (fault : Fault)
  | refused (refusal : NodeTable.Refusal)
deriving DecidableEq, Repr

/-- A table under construction, with the row and the depth of its latest node. -/
structure Growth where
  table : NodeTable
  latest : Nat
  depth : Nat

/-- The width of one level. -/
def indentWidth : Nat := 2

/-- The depth of a line that may follow one of depth `previous`. -/
def checkDepth (previous : Nat) (line : Line) : Except Fault Nat :=
  let spaces := line.spaces
  let depth := spaces / indentWidth
  if spaces % indentWidth ≠ 0 then .error (.misalignedIndent line.place)
  else if depth = 0 then .error (.orphanLine line.place)
  else if depth > previous + 1 then .error (.indentJump line.place previous depth)
  else .ok depth

/-- The row `levels` steps above `i`. -/
def ascend (table : NodeTable) : Nat → Nat → Except NodeTable.Refusal Nat
  | 0, i => .ok i
  | levels + 1, i => do ascend table levels (← table.above i)

/-- The name under which a rule is stored; sentinels keep theirs. -/
def storedRule (rename : String → String) (rule : String) : String :=
  if isSentinel rule then rule else rename rule

/-- Adds the node of one line. -/
def Growth.add (rename : String → String) (g : Growth) (line : Line) : Except Failure Growth := do
  let depth ← (checkDepth g.depth line).mapError .fault
  let parent ← (ascend g.table (g.depth + 1 - depth) g.latest).mapError .refused
  let (rule, token?) := splitEntry (line.chars.drop (depth * indentWidth))
  if g.table.isToken parent then throw (.fault (.childOfToken line.place rule))
  let row := g.table.size
  let table ← (g.table.push parent (storedRule rename rule) token?).mapError .refused
  return ⟨table, row, depth⟩

/-- The table before any line but the first is read. -/
def Growth.start (rename : String → String) (root : Line) : Growth :=
  ⟨.singleton (rename (String.ofList (Text.trim root.chars))), 0, 0⟩

/-- Reads a dump, storing every rule under the name that `rename` gives it. -/
def decodeWith (rename : String → String) (source : String) : Except Failure NodeTable :=
  match nodeLines source with
  | [] => .error (.fault .empty)
  | root :: rest => (rest.foldlM (Growth.add rename) (Growth.start rename root)).map Growth.table

/-- Reads a reference dump, whose rules are kept as written. -/
def decode (source : String) : Except Failure NodeTable := decodeWith id source

/-- Reads a candidate dump, whose rules are named after the classes of a generated parser. -/
def decodeCandidate (source : String) : Except Failure NodeTable :=
  decodeWith RuleName.ofClassName source

end TreeAccord.Dump
