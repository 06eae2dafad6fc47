import TreeAccord.Cli.Batch

/-! # What a batch adds up

A batch goes through its fixtures with one tally, and writes a line in pieces around what may fail.
In the end every fixture has added the same to the tally, whatever stood in it before: one to the
total, a line, and what its result has for the other counts. So the run comes to sums over the
fixtures. -/

namespace TreeAccord.Cli

/-- What becomes of one fixture. -/
structure FixtureResult where
  line : String
  error? : Option String := none
  passed : Bool := false
  /-- Whether the other policy comes to another verdict. -/
  disagrees : Bool := false
deriving DecidableEq, Repr

/-- The result of a fixture from what its files hold. -/
def BatchPlan.judge (plan : BatchPlan) (name : String) (loaded : Except LoadError Fixture) :
    FixtureResult :=
  let p := Palette.ofFlag plan.colored
  let label := padTo labelColumns (dotted name plan.candidateExt ++ ":")
  match loaded with
  | .error e =>
    { line := label ++ verdictText p false ++ "\n", error? := some (e.render plan.colored ++ "\n") }
  | .ok fixture =>
    let passed := (fixture.verdict plan.primary).isAgreement
    let passesOther := (fixture.verdict plan.other).isAgreement
    let disagrees := plan.policyDiff && passesOther != passed
    let note := if disagrees
      then disagreementNote p plan.concordance.namePolicy.other passesOther else ""
    { line := label ++ verdictText p passed ++ note ++ "\n", passed, disagrees }

namespace BatchTally

/-- The tally with the result of one more fixture. -/
def add (tally : BatchTally) (name : String) (result : FixtureResult) : BatchTally where
  total := tally.total + 1
  passed := tally.passed + result.passed.toNat
  disagreements := tally.disagreements ++ if result.disagrees then [name] else []
  stdout := tally.stdout ++ result.line
  stderr := tally.stderr ++ result.error?.getD ""

/-- Results that are added one after the other come to sums over all of them. -/
theorem foldl_add (result : String → FixtureResult) (names : List String) (tally : BatchTally) :
    names.foldl (fun tally name => tally.add name (result name)) tally =
      { total := tally.total + names.length
        passed := tally.passed + names.countP fun name => (result name).passed
        disagreements := tally.disagreements ++ names.filter fun name => (result name).disagrees
        stdout := tally.stdout ++ Text.concat (names.map fun name => (result name).line)
        stderr := tally.stderr ++ Text.concat (names.filterMap fun name => (result name).error?) } := by
  induction names generalizing tally with
  | nil => simp
  | cons name names ih =>
      rw [List.foldl_cons, ih, add, BatchTally.mk.injEq]
      refine ⟨?htotal, ?hpassed, ?hdisagreements, ?hstdout, ?hstderr⟩
      case htotal =>
        rw [List.length_cons, Nat.add_assoc, Nat.add_comm 1]
      case hpassed =>
        rw [List.countP_cons]
        cases (result name).passed with
        | true => simp only [Bool.toNat_true, if_true]; omega
        | false => rfl
      case hdisagreements =>
        rw [List.filter_cons, List.append_assoc]
        cases (result name).disagrees with
        | true => rfl
        | false => rfl
      case hstdout => rw [List.map_cons, Text.concat_cons, String.append_assoc]
      case hstderr =>
        rw [List.filterMap_cons, String.append_assoc]
        cases (result name).error? with
        | none => rw [Option.getD_none, String.empty_append]
        | some e => rw [Option.getD_some, Text.concat_cons]

end BatchTally

namespace BatchPlan

variable (plan : BatchPlan)

/-- A line that is begun before a fixture is loaded and ended after it holds the whole result. -/
theorem conclude_announce (tally : BatchTally) (name : String)
    (loaded : Except LoadError Fixture) :
    plan.conclude (plan.announce tally name) name loaded =
      tally.add name (plan.judge name loaded) := by
  cases loaded with
  | error e =>
      simp [conclude, announce, judge, BatchTally.add, BatchTally.write, BatchTally.report,
        String.append_assoc]
  | ok fixture =>
      -- What is counted and noted depends on the two verdicts and on whether both are asked for.
      simp only [conclude, announce, judge, compareOther]
      generalize (fixture.verdict plan.primary).isAgreement = passes
      generalize (fixture.verdict plan.other).isAgreement = passesOther
      cases passes <;> cases passesOther <;> cases plan.policyDiff <;>
        simp [BatchTally.add, BatchTally.write, BatchTally.countPassed,
          BatchTally.addDisagreement, String.append_assoc]

/-- The result of a fixture in a file system. -/
def check (files : Files Id) (name : String) : FixtureResult :=
  plan.judge name (loadFixture files
    (loadCandidate files (join plan.dir (dotted name plan.candidateExt)))
    (join plan.dir (dotted name dumpExtension))).run

theorem step_eq (files : Files Id) (tally : BatchTally) (name : String) :
    (plan.step files tally name).run = tally.add name (plan.check files name) :=
  plan.conclude_announce tally name _

/-- What a batch writes below the lines of its fixtures. -/
def summary (passed disagreements : Nat) : String :=
  "\nNumber of passed tests: " ++ passed.repr ++ "\n" ++
    (if plan.policyDiff then "Policy disagreements: " ++ disagreements.repr ++ "\n" else "")

theorem sumUp_eq (tally : BatchTally) :
    plan.sumUp tally =
      { tally with
        stdout := tally.stdout ++ plan.summary tally.passed tally.disagreements.length } := by
  unfold sumUp summary
  split
  · simp only [BatchTally.write, String.append_assoc]
  · simp only [BatchTally.write, String.append_empty]

/-- A batch comes to the sums over its fixtures. -/
theorem run_eq (files : Files Id) (names : List String) :
    (plan.run files names).run =
      { total := names.length
        passed := names.countP fun name => (plan.check files name).passed
        disagreements := names.filter fun name => (plan.check files name).disagrees
        stdout := Text.concat (names.map fun name => (plan.check files name).line) ++
          plan.summary (names.countP fun name => (plan.check files name).passed)
            (names.filter fun name => (plan.check files name).disagrees).length
        stderr := Text.concat (names.filterMap fun name => (plan.check files name).error?) } := by
  rw [run, Id.run_map, List.idRun_foldlM]
  simp only [step_eq]
  rw [BatchTally.foldl_add, sumUp_eq]
  simp

end BatchPlan

end TreeAccord.Cli
