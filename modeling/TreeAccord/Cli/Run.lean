import TreeAccord.Cli.Batch
import TreeAccord.Cli.TestData
import TreeAccord.Config.Writing
import TreeAccord.Dump.Print

/-!
# Running commands

A command ends with an exit code and what it writes to its two outputs: 0 if all is well, 1 if
trees differ or something cannot be loaded, 2 if the command line is wrong.
-/

namespace TreeAccord.Cli

structure Outcome where
  code : Nat
  stdout : String := ""
  stderr : String := ""
deriving DecidableEq, Repr

/-- The outcome of a command that cannot load what it needs. -/
def failed (error : String) : Outcome := { code := 1, stderr := error ++ "\n" }

/-- The outcome of a wrong command line. -/
def usageError : Outcome := { code := 2 }

variable {m : Type → Type} [Monad m] (files : Files m) (terminal : Bool)

/-- Goes on with the concordance that the options name. -/
def withConcordance (config? : Option String) (policy? : Option NamePolicy)
    (next : Concordance → m Outcome) : m Outcome := do
  match ← loadConcordance files config? policy? with
  | .error e => return failed (e.render false)
  | .ok k => next k

/-- The outcome of comparing one fixture. -/
def comparisonOutcome (colored : Bool) (comparison : Comparison) :
    Except LoadError Fixture → Outcome
  | .error e =>
    { code := 1, stdout := verdictText .plain false ++ "\n", stderr := e.render colored ++ "\n" }
  | .ok fixture =>
    match fixture.verdict comparison with
    | .agree => { code := 0, stdout := verdictText (.ofFlag colored) true ++ "\n" }
    | .diverge d =>
      { code := 1, stdout := verdictText .plain false ++ "\n" ++ d.message ++ "\n" }

def runCompare (name : String) (candidateDump? reference? : Option String) (options : Comparing) :
    m Outcome :=
  withConcordance files options.config? options.policy? fun k => do
    let reference := reference?.getD (dotted name dumpExtension)
    let candidate := match candidateDump? with
      | some path => loadDump files Dump.decodeCandidate path
      | none => loadCandidate files (dotted name options.candidateExt)
    return comparisonOutcome (options.color.shows terminal) ⟨k, options.depthLimit?⟩
      (← loadFixture files candidate reference)

def runBatch (dir : String) (discovering policyDiff : Bool) (options : Comparing) : m Outcome :=
  withConcordance files options.config? options.policy? fun k => do
    let names ←
      if discovering then pairedNames files dir options.candidateExt else pure (.ok kotlinFixtures)
    match names with
    | .error reason => return failed ("error: cannot list " ++ dir ++ ": " ++ reason.message)
    | .ok names =>
      let plan : BatchPlan := {
        dir
        candidateExt := options.candidateExt
        concordance := k
        depthLimit? := options.depthLimit?
        policyDiff
        colored := options.color.shows terminal }
      let tally ← plan.run files names
      return {
        code := if tally.passed = tally.total then 0 else 1
        stdout := tally.stdout
        stderr := tally.stderr }

def runTree (file : String) (candidate : Bool) (color : ColorMode) : m Outcome := do
  let colored := color.shows terminal
  let loaded ←
    if candidate then loadDump files Dump.decodeCandidate file
    else if isSource file then loadSource files file
    else loadDump files Dump.decode file
  return match loaded with
    | .error e => failed (e.render colored)
    | .ok table => { code := 0, stdout := Dump.print (.ofFlag colored) table.tree }

def runConfig (config? : Option String) (policy? : Option NamePolicy) : m Outcome :=
  withConcordance files config? policy? fun k =>
    return { code := 0, stdout := k.settings.pretty ++ "\n" }

def Command.run : Command → m Outcome
  | .compare name candidateDump? reference? options =>
    runCompare files terminal name candidateDump? reference? options
  | .batch dir discovering policyDiff options =>
    runBatch files terminal dir discovering policyDiff options
  | .tree file candidate color => runTree files terminal file candidate color
  | .config config? policy? => runConfig files config? policy?

/-- Runs a command line. -/
def run (arguments : List String) : m Outcome :=
  match Command.ofArguments? arguments with
  | some command => command.run files terminal
  | none => return usageError

end TreeAccord.Cli
