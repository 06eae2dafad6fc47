import TreeAccord.Cli.Load
import TreeAccord.Palette

/-!
# Batches

All fixtures of a directory, one line each. The label of a line is written before the fixture is
loaded; a fixture that cannot be loaded fails on its own line and the batch goes on.
-/

namespace TreeAccord.Cli

/-- The extension of reference dumps. -/
def dumpExtension : String := "txt"

/-- The columns of a fixture's label. -/
def labelColumns : Nat := 38

/-- Fills a text up to a number of characters. -/
def padTo (width : Nat) (text : String) : String :=
  text ++ String.ofList (List.replicate (width - text.length) ' ')

/-- The verdict in words; only success has a color. -/
def verdictText (p : Palette) (agrees : Bool) : String :=
  if agrees then p.green ++ "Test passed" ++ p.reset else "Test failed"

structure BatchPlan where
  dir : String
  candidateExt : String
  concordance : Concordance
  depthLimit? : Option Nat
  policyDiff : Bool
  colored : Bool

namespace BatchPlan

def primary (plan : BatchPlan) : Comparison := ⟨plan.concordance, plan.depthLimit?⟩

/-- The comparison under the other name policy. -/
def other (plan : BatchPlan) : Comparison :=
  ⟨plan.concordance.withPolicy plan.concordance.namePolicy.other, plan.depthLimit?⟩

end BatchPlan

/-- The note on a verdict that the other policy turns around. -/
def disagreementNote (p : Palette) (other : NamePolicy) (passes : Bool) : String :=
  "  " ++ p.red ++ "[" ++ (if passes then "passes" else "fails") ++ " with --name-check "
    ++ other.name ++ "]" ++ p.reset

/-! ## The state of a batch -/

/-- A batch so far: what it has counted, and what it has written to its two outputs. -/
structure BatchTally where
  total : Nat := 0
  passed : Nat := 0
  /-- The fixtures on which the two policies disagree. -/
  disagreements : List String := []
  stdout : String := ""
  stderr : String := ""
deriving DecidableEq, Repr

namespace BatchTally

/-- Goes on in the line that stands in the output. -/
def write (tally : BatchTally) (text : String) : BatchTally :=
  { tally with stdout := tally.stdout ++ text }

/-- Writes a line of its own on an error. -/
def report (tally : BatchTally) (message : String) : BatchTally :=
  { tally with stderr := tally.stderr ++ (message ++ "\n") }

def countPassed (tally : BatchTally) : BatchTally :=
  { tally with passed := tally.passed + 1 }

def addDisagreement (tally : BatchTally) (name : String) : BatchTally :=
  { tally with disagreements := tally.disagreements ++ [name] }

end BatchTally

/-! ## Fixture after fixture -/

namespace BatchPlan

variable (plan : BatchPlan)

/-- Counts a fixture and begins its line, before anything of it is loaded. -/
def announce (tally : BatchTally) (name : String) : BatchTally :=
  let tally := { tally with total := tally.total + 1 }
  tally.write (padTo labelColumns (dotted name plan.candidateExt ++ ":"))

/-- Notes on the line of a fixture that the other policy comes to another verdict. -/
def compareOther (tally : BatchTally) (name : String) (fixture : Fixture) (passes : Bool) :
    BatchTally :=
  let passesOther := (fixture.verdict plan.other).isAgreement
  if passesOther != passes then
    (tally.addDisagreement name).write
      (disagreementNote (.ofFlag plan.colored) plan.concordance.namePolicy.other passesOther)
  else tally

/-- Ends the line of a fixture. If it could not be loaded it failed, and the batch goes on. -/
def conclude (tally : BatchTally) (name : String) : Except LoadError Fixture → BatchTally
  | .error e =>
    (tally.write (verdictText (.ofFlag plan.colored) false ++ "\n")).report (e.render plan.colored)
  | .ok fixture =>
    let passes := (fixture.verdict plan.primary).isAgreement
    let tally := if passes then tally.countPassed else tally
    let tally := tally.write (verdictText (.ofFlag plan.colored) passes)
    let tally := if plan.policyDiff then plan.compareOther tally name fixture passes else tally
    tally.write "\n"

/-- Writes the counts below the lines. -/
def sumUp (tally : BatchTally) : BatchTally :=
  let tally := tally.write ("\nNumber of passed tests: " ++ tally.passed.repr ++ "\n")
  if plan.policyDiff then
    tally.write ("Policy disagreements: " ++ tally.disagreements.length.repr ++ "\n")
  else tally

variable {m : Type → Type} [Monad m] (files : Files m)

/-- Takes up one fixture. -/
def step (tally : BatchTally) (name : String) : m BatchTally := do
  let tally := plan.announce tally name
  let candidate := join plan.dir (dotted name plan.candidateExt)
  let reference := join plan.dir (dotted name dumpExtension)
  return plan.conclude tally name
    (← loadFixture files (loadCandidate files candidate) reference)

/-- Takes up the fixtures one after the other. -/
def run (names : List String) : m BatchTally :=
  plan.sumUp <$> names.foldlM (plan.step files) {}

end BatchPlan

/-! ## Finding fixtures -/

variable {m : Type → Type} [Monad m]

/-- The names of all reference dumps in a directory that have a candidate beside them. -/
def pairedNames (files : Files m) (dir candidateExt : String) : m (Except Reason (List String)) := do
  match ← files.list dir with
  | .error reason => return .error reason
  | .ok entries =>
    let stems := entries.filterMap fun entry =>
      if extension? entry = some dumpExtension then stem? entry else none
    let found ← stems.filterM fun stem => files.isFile (join dir (dotted stem candidateExt))
    return .ok (found.mergeSort fun a b => decide (a ≤ b))

end TreeAccord.Cli
