import TreeAccord.Cli.Run
import TreeAccord.Proofs.Cli.Fixtures

/-! # Batches

A batch whose candidates are dumps is the sum of its fixtures. Each of them adds its own line, and
its error if it has one, whatever the others come to. So the order of the fixtures is the order of
the lines and of nothing else. -/

namespace TreeAccord.Cli

/-- Appending an extension to a path appends it to the name that the path ends in. -/
theorem join_dotted (dir name extension : String) :
    join dir (dotted name extension) = dotted (join dir name) extension := by
  have hhead : (dotted name extension).toList.head? = some '/' ↔ name.toList.head? = some '/' := by
    simp only [dotted, String.toList_append]
    cases name.toList with
    | nil => exact iff_of_false (by simp) (by simp)
    | cons c cs => rfl
  simp only [join, Bool.or_eq_true, decide_eq_true_eq, hhead]
  split
  · rfl
  · split
    · simp only [dotted, String.append_assoc]
    · simp only [dotted, String.append_assoc]

namespace BatchPlan

/-- The lines of the fixtures of a batch. -/
def lines (plan : BatchPlan) (files : Files Id) (names : List String) : List String :=
  names.map fun name => plan.line name (plan.readings name files)

/-- The tally of a batch adds up what its fixtures come to, each by its own two files. The other
policy has a say only if the plan asks for it. -/
structure Sums (plan : BatchPlan) (files : Files Id) (names : List String) (tally : BatchTally) :
    Prop where
  total : tally.total = names.length
  passed : tally.passed = names.countP fun name => plan.Passes (plan.readings name files)
  disagreements : tally.disagreements =
    names.filter fun name => plan.policyDiff ∧ plan.Flips (plan.readings name files)
  stdout : tally.stdout = Text.concat (plan.lines files names) ++
    plan.summary tally.passed tally.disagreements.length
  stderr : tally.stderr = Text.concat
    ((names.filterMap fun name => plan.error? name (plan.readings name files)).map fun e =>
      e.render plan.colored ++ "\n")

variable {plan : BatchPlan} {files : Files Id} {names : List String}

/-- A batch comes to its tally whatever its fixtures come to, and takes each of them by itself. -/
theorem sums_run (dumps : ∀ name ∈ names, isSource (plan.candidatePath name) = false) :
    plan.Sums files names (plan.run files names) := by
  have hresult : ∀ name ∈ names,
      plan.check files name = plan.result name (plan.readings name files) :=
    fun name h => check_eq (dumps name h)
  have hpassed : names.countP (fun name => (plan.check files name).passed) =
      names.countP fun name => plan.Passes (plan.readings name files) :=
    List.countP_congr fun name h => by rw [hresult name h, passed_result]
  have hdisagreements : names.filter (fun name => (plan.check files name).disagrees) =
      names.filter fun name => plan.policyDiff ∧ plan.Flips (plan.readings name files) :=
    List.filter_congr fun name h => by rw [hresult name h, disagrees_result]
  have hlines : names.map (fun name => (plan.check files name).line) = plan.lines files names :=
    List.map_congr_left fun name h => by rw [hresult name h, line_result]
  have herrors : names.filterMap (fun name => (plan.check files name).error?) =
      (names.filterMap fun name => plan.error? name (plan.readings name files)).map fun e =>
        e.render plan.colored ++ "\n" := by
    rw [List.map_filterMap]
    exact List.filterMap_congr fun name h => by rw [hresult name h, error?_result]
  have hrun := plan.run_eq files names
  rw [hpassed, hdisagreements, hlines, herrors] at hrun
  change plan.Sums files names (plan.run files names).run
  rw [hrun]
  exact ⟨rfl, rfl, rfl, rfl, rfl⟩

/-- Fixtures in another order come to the same counts, and to the same lines in that order. -/
structure Reorders (plan : BatchPlan) (files : Files Id) (names others : List String) : Prop where
  total : (plan.run files others).total = (plan.run files names).total
  passed : (plan.run files others).passed = (plan.run files names).passed
  disagreements :
    ((plan.run files others).disagreements).Perm (plan.run files names).disagreements
  lines : (plan.lines files others).Perm (plan.lines files names)
  stdout : (plan.run files others).stdout = Text.concat (plan.lines files others) ++
    plan.summary (plan.run files names).passed (plan.run files names).disagreements.length

theorem reorders_of_perm {others : List String}
    (dumps : ∀ name ∈ names, isSource (plan.candidatePath name) = false) (h : others.Perm names) :
    plan.Reorders files names others := by
  have hnames : plan.Sums files names (plan.run files names) := sums_run dumps
  have hothers : plan.Sums files others (plan.run files others) :=
    sums_run fun name hname => dumps name (h.mem_iff.mp hname)
  have hpassed : (plan.run files others).passed = (plan.run files names).passed := by
    rw [hothers.passed, hnames.passed]
    exact h.countP_eq _
  have hdisagreements :
      ((plan.run files others).disagreements).Perm (plan.run files names).disagreements := by
    rw [hothers.disagreements, hnames.disagreements]
    exact h.filter _
  -- Equal counts make the summaries equal, whatever the order of the lines above them.
  refine ⟨?_, hpassed, hdisagreements, h.map _, ?_⟩
  · rw [hothers.total, hnames.total]
    exact h.length_eq
  · rw [hothers.stdout, hpassed, hdisagreements.length_eq]

end BatchPlan

/-! ## The commands -/

/-- The options of a command line come to what the plan of a batch holds. -/
structure Comparing.Give (options : Comparing) (files : Files Id) (terminal : Bool)
    (plan : BatchPlan) : Prop where
  concordance : (loadConcordance files options.config? options.policy?).run = .ok plan.concordance
  candidateExt : options.candidateExt = plan.candidateExt
  depthLimit? : options.depthLimit? = plan.depthLimit?
  colored : options.color.shows terminal = plan.colored

section

variable {plan : BatchPlan} {files : Files Id} {terminal : Bool} {options : Comparing}

theorem withConcordance_eq {config? : Option String} {policy? : Option NamePolicy}
    {k : Concordance} (h : (loadConcordance files config? policy?).run = .ok k)
    (next : Concordance → Id Outcome) : withConcordance files config? policy? next = next k := by
  change (withConcordance files config? policy? next).run = _
  simp only [withConcordance, Id.run_bind, h]
  rfl

theorem runBatch_eq (give : options.Give files terminal plan) {discovering : Bool}
    {names : List String}
    (found : (if discovering then pairedNames files plan.dir plan.candidateExt
      else pure (.ok kotlinFixtures)).run = .ok names) :
    (runBatch files terminal plan.dir discovering plan.policyDiff options).run =
      { code := if (plan.run files names).passed = (plan.run files names).total then 0 else 1
        stdout := (plan.run files names).stdout
        stderr := (plan.run files names).stderr } := by
  rw [runBatch, withConcordance_eq give.concordance, give.candidateExt, give.colored,
    give.depthLimit?]
  cases discovering with
  | true =>
      have hfound : (pairedNames files plan.dir plan.candidateExt).run = .ok names := found
      simp only [if_true, Id.run_bind, hfound]
      rfl
  | false =>
      obtain rfl : kotlinFixtures = names := Except.ok.inj found
      rfl

theorem runCompare_eq (give : options.Give files terminal plan) {name : String}
    (dump : isSource (plan.candidatePath name) = false) :
    (runCompare files terminal (join plan.dir name) none none options).run =
      comparisonOutcome plan.colored plan.primary ((plan.readings name files).fixture
        (plan.candidatePath name) (plan.referencePath name)) := by
  have hcandidate : dotted (join plan.dir name) options.candidateExt = plan.candidatePath name := by
    rw [give.candidateExt, ← join_dotted]
    rfl
  have hreference : dotted (join plan.dir name) dumpExtension = plan.referencePath name :=
    (join_dotted ..).symm
  rw [runCompare, withConcordance_eq give.concordance, hcandidate, hreference, give.colored,
    give.depthLimit?]
  exact congrArg (comparisonOutcome plan.colored plan.primary)
    (loadFixture_eq (plan.referencePath name) dump)

/-- A single comparison comes to the verdict that a batch comes to on the same files. -/
theorem runCompare_verdict (give : options.Give files terminal plan) {name : String}
    (dump : isSource (plan.candidatePath name) = false) :
    (runCompare files terminal (join plan.dir name) none none options).run.code =
      (if plan.Passes (plan.readings name files) then 0 else 1) ∧
    ∃ rest, (runCompare files terminal (join plan.dir name) none none options).run.stdout =
      (if plan.Passes (plan.readings name files) then
        (Palette.ofFlag plan.colored).green ++ "Test passed" ++ (Palette.ofFlag plan.colored).reset
      else "Test failed") ++ "\n" ++ rest := by
  rw [runCompare_eq give dump]
  obtain ⟨f, hf, hfixture⟩ | ⟨e, hnone, hfixture⟩ := (plan.readings name files).fixture_cases
    (plan.candidatePath name) (plan.referencePath name)
  · rw [hfixture, comparisonOutcome]
    cases hverdict : f.verdict plan.primary with
    | agree =>
        have hpasses : plan.Passes (plan.readings name files) := by
          rw [plan.passes_iff hf, hverdict]
          rfl
        rw [if_pos hpasses, if_pos hpasses]
        exact ⟨rfl, "", String.append_empty.symm⟩
    | diverge d =>
        have hfails : ¬plan.Passes (plan.readings name files) := by
          rw [plan.passes_iff hf, hverdict]
          exact Bool.false_ne_true
        rw [if_neg hfails, if_neg hfails]
        exact ⟨rfl, d.message ++ "\n", String.append_assoc ..⟩
  · have hfails : ¬plan.Passes (plan.readings name files) := BatchPlan.not_passes hnone
    rw [hfixture, comparisonOutcome, if_neg hfails, if_neg hfails]
    exact ⟨rfl, "", String.append_empty.symm⟩

end

/-- Four fixtures: a candidate without a root, a match, a mismatch and a candidate without text. -/
def mixedFiles : FileMap :=
  [(["cut.ast"], .file (some "")), (["cut.txt"], .file (some "A\n")),
    (["good.ast"], .file (some "A\n")), (["good.txt"], .file (some "A\n")),
    (["odd.ast"], .file (some "A\n  B(K)('x')\n")), (["odd.txt"], .file (some "A\n")),
    (["raw.ast"], .file none), (["raw.txt"], .file (some "A\n"))]

def mixedNames : List String := ["cut", "good", "odd", "raw"]

def mixedOptions : Comparing where
  candidateExt := "ast"

def mixedPlan : BatchPlan where
  dir := "."
  candidateExt := "ast"
  concordance := KotlinPsi.concordance
  depthLimit? := none
  policyDiff := true
  colored := false

theorem pairedNames_mixedFiles :
    (pairedNames mixedFiles.files "." "ast").run = .ok mixedNames := by
  have hlist : (mixedFiles.files.list ".").run = .ok ["cut.ast", "cut.txt", "good.ast", "good.txt",
      "odd.ast", "odd.txt", "raw.ast", "raw.txt"] := by decide
  have hstems : ["cut.ast", "cut.txt", "good.ast", "good.txt", "odd.ast", "odd.txt", "raw.ast",
      "raw.txt"].filterMap (fun entry =>
        if extension? entry = some dumpExtension then stem? entry else none) = mixedNames := by
    decide
  have hfound : (mixedNames.filterM fun stem =>
      mixedFiles.files.isFile (join "." (dotted stem "ast"))).run = mixedNames := by decide
  have hsorted : mixedNames.mergeSort (fun a b => decide (a ≤ b)) = mixedNames :=
    List.mergeSort_of_pairwise (by decide)
  simp only [pairedNames, Id.run_bind, hlist, hstems, hfound, hsorted]
  rfl

end TreeAccord.Cli
