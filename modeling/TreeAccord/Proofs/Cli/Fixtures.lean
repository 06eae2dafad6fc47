import TreeAccord.Proofs.Compare.Policies

/-! # Fixtures

What becomes of a fixture follows from what reading its two files gives: the trees or one error, the
verdicts and the line. Where candidates are dumps, a batch checks a fixture in just this way. -/

namespace TreeAccord.Cli

/-! ## Dumps -/

section

variable (decode : String → Except Dump.Failure NodeTable) (path : String)

/-- The tree of a file, or why there is none. -/
def dumpOf : Except Reason String → Except LoadError NodeTable
  | .error reason => .error (.unreadable path reason)
  | .ok text =>
    match decode text with
    | .ok t => .ok t
    | .error (.fault fault) => .error (.malformed path text fault)
    | .error (.refused refusal) => .error (.refused refusal)

theorem dumpOf_eq_ok_iff (reading : Except Reason String) (t : NodeTable) :
    dumpOf decode path reading = .ok t ↔ ∃ text, reading = .ok text ∧ decode text = .ok t := by
  cases reading with
  | error reason => simp [dumpOf]
  | ok text =>
      cases hdecode : decode text with
      | ok t => simp [dumpOf, hdecode]
      | error failure => cases failure <;> simp [dumpOf, hdecode]

theorem loadDump_eq (files : Files Id) :
    loadDump files decode path = dumpOf decode path (files.read path) := by
  change ((files.read path).run.mapError (LoadError.unreadable path)).bind _ = _
  generalize files.read path = reading
  match reading with
  | .error reason => rfl
  | .ok text =>
      change (decode text).mapError _ = _
      match hdecode : decode text with
      | .ok t =>
          rw [dumpOf, hdecode]
          rfl
      | .error (.fault fault) =>
          rw [dumpOf, hdecode]
          rfl
      | .error (.refused refusal) =>
          rw [dumpOf, hdecode]
          rfl

end

/-! ## The two files of a fixture -/

/-- What reading the files of a fixture gives. -/
structure Readings where
  candidate : Except Reason String
  reference : Except Reason String

namespace Readings

/-- Both files can be read, and their texts are dumps of the fixture's trees. -/
structure Hold (r : Readings) (fixture : Fixture) : Prop where
  candidate : ∃ text, r.candidate = .ok text ∧ Dump.decodeCandidate text = .ok fixture.candidate
  reference : ∃ text, r.reference = .ok text ∧ Dump.decode text = .ok fixture.reference

/-- The fixture that the files hold, or the error of one of them, of the reference if it has one. -/
def fixture (r : Readings) (candidatePath referencePath : String) : Except LoadError Fixture :=
  match dumpOf Dump.decode referencePath r.reference,
    dumpOf Dump.decodeCandidate candidatePath r.candidate with
  | .ok reference, .ok candidate => .ok ⟨candidate, reference⟩
  | .ok _, .error e => .error e
  | .error e, _ => .error e

variable {r : Readings} {f g : Fixture}

theorem fixture_eq_ok_iff (candidatePath referencePath : String) :
    r.fixture candidatePath referencePath = .ok f ↔ r.Hold f := by
  have hcandidate := dumpOf_eq_ok_iff Dump.decodeCandidate candidatePath r.candidate f.candidate
  have hreference := dumpOf_eq_ok_iff Dump.decode referencePath r.reference f.reference
  constructor
  · intro h
    rw [fixture] at h
    split at h
    · rename_i reference candidate hr hc
      obtain rfl := Except.ok.inj h
      exact ⟨hcandidate.mp hc, hreference.mp hr⟩
    · cases h
    · cases h
  · intro h
    simp only [fixture, hreference.mpr h.reference, hcandidate.mpr h.candidate]

/-- The files hold trees, or one of them comes to an error. -/
theorem fixture_cases (r : Readings) (candidatePath referencePath : String) :
    (∃ f, r.Hold f ∧ r.fixture candidatePath referencePath = .ok f) ∨
    (∃ e, (¬∃ f, r.Hold f) ∧ r.fixture candidatePath referencePath = .error e) := by
  cases hfixture : r.fixture candidatePath referencePath with
  | ok f => exact .inl ⟨f, (fixture_eq_ok_iff candidatePath referencePath).mp hfixture, rfl⟩
  | error e =>
      refine .inr ⟨e, ?_, rfl⟩
      rintro ⟨f, hf⟩
      rw [(fixture_eq_ok_iff candidatePath referencePath).mpr hf] at hfixture
      cases hfixture

/-- The files hold the trees of one fixture at most. -/
theorem Hold.unique (hf : r.Hold f) (hg : r.Hold g) : f = g :=
  Except.ok.inj (((fixture_eq_ok_iff "" "").mpr hf).symm.trans ((fixture_eq_ok_iff "" "").mpr hg))

theorem Hold.exists_and_iff (hf : r.Hold f) (P : Fixture → Prop) :
    (∃ g, r.Hold g ∧ P g) ↔ P f := by
  refine ⟨?_, fun h => ⟨f, hf, h⟩⟩
  rintro ⟨g, hg, h⟩
  rwa [hg.unique hf] at h

end Readings

theorem loadFixture_eq {files : Files Id} {candidatePath : String} (referencePath : String)
    (dump : isSource candidatePath = false) :
    loadFixture files (loadCandidate files candidatePath) referencePath =
      Readings.fixture ⟨files.read candidatePath, files.read referencePath⟩ candidatePath
        referencePath := by
  have hcandidate : loadCandidate files candidatePath =
      dumpOf Dump.decodeCandidate candidatePath (files.read candidatePath) := by
    rw [loadCandidate, dump, if_neg Bool.false_ne_true, loadDump_eq]
  rw [loadFixture, hcandidate, loadDump_eq, Readings.fixture]
  cases dumpOf Dump.decode referencePath (files.read referencePath) with
  | error e => rfl
  | ok reference =>
      cases dumpOf Dump.decodeCandidate candidatePath (files.read candidatePath) with
      | error e => rfl
      | ok candidate => rfl

namespace BatchPlan

variable (plan : BatchPlan) (name : String)

def candidatePath : String := join plan.dir (dotted name plan.candidateExt)

def referencePath : String := join plan.dir (dotted name dumpExtension)

/-- What the files of a fixture give in a file system. -/
def readings (files : Files Id) : Readings where
  candidate := files.read (plan.candidatePath name)
  reference := files.read (plan.referencePath name)

/-- The files hold trees that match. -/
def Passes (r : Readings) : Prop :=
  ∃ f, r.Hold f ∧ (f.verdict plan.primary).isAgreement = true

/-- The files hold trees on which the other policy comes to another verdict. -/
def Flips (r : Readings) : Prop :=
  ∃ f, r.Hold f ∧ (f.verdict plan.other).isAgreement ≠ (f.verdict plan.primary).isAgreement

/-- The error of a fixture whose files do not hold trees. -/
def error? (r : Readings) : Option LoadError :=
  match r.fixture (plan.candidatePath name) (plan.referencePath name) with
  | .ok _ => none
  | .error e => some e

/-- The result of a fixture from what reading its files gives. -/
def result (r : Readings) : FixtureResult :=
  plan.judge name (r.fixture (plan.candidatePath name) (plan.referencePath name))

theorem check_eq {files : Files Id} {plan : BatchPlan} {name : String}
    (dump : isSource (plan.candidatePath name) = false) :
    plan.check files name = plan.result name (plan.readings name files) := by
  exact congrArg (plan.judge name) (loadFixture_eq (plan.referencePath name) dump)

variable {plan name} {r : Readings}

theorem error?_isSome_iff : (plan.error? name r).isSome = true ↔ ¬∃ f, r.Hold f := by
  rw [error?]
  obtain ⟨f, hf, hfixture⟩ | ⟨e, hnone, hfixture⟩ :=
    r.fixture_cases (plan.candidatePath name) (plan.referencePath name)
  · rw [hfixture]
    exact iff_of_false Bool.false_ne_true (not_not_intro ⟨f, hf⟩)
  · rw [hfixture]
    exact iff_of_true rfl hnone

/-- What is wrong with the reference is said first. -/
theorem error?_of_reference {e : LoadError}
    (h : dumpOf Dump.decode (plan.referencePath name) r.reference = .error e) :
    plan.error? name r = some e := by
  rw [error?, Readings.fixture, h]

theorem error?_result : (plan.result name r).error? =
    (plan.error? name r).map fun e => e.render plan.colored ++ "\n" := by
  rw [result, error?]
  cases r.fixture (plan.candidatePath name) (plan.referencePath name) with
  | ok f => rfl
  | error e => rfl

/-- The verdict on the trees that the files hold. -/
theorem passes_iff (plan : BatchPlan) {f : Fixture} (hf : r.Hold f) :
    plan.Passes r ↔ (f.verdict plan.primary).isAgreement = true :=
  hf.exists_and_iff _

theorem not_passes (h : ¬∃ f, r.Hold f) : ¬plan.Passes r :=
  fun ⟨f, hf, _⟩ => h ⟨f, hf⟩

theorem flips_iff (plan : BatchPlan) {f : Fixture} (hf : r.Hold f) :
    plan.Flips r ↔ (f.verdict plan.other).isAgreement ≠ (f.verdict plan.primary).isAgreement :=
  hf.exists_and_iff _

theorem not_flips (h : ¬∃ f, r.Hold f) : ¬plan.Flips r :=
  fun ⟨f, hf, _⟩ => h ⟨f, hf⟩

theorem passed_result_iff : (plan.result name r).passed = true ↔ plan.Passes r := by
  rw [result]
  obtain ⟨f, hf, hfixture⟩ | ⟨e, hnone, hfixture⟩ :=
    r.fixture_cases (plan.candidatePath name) (plan.referencePath name)
  · rw [hfixture, plan.passes_iff hf]
    rfl
  · rw [hfixture]
    exact iff_of_false Bool.false_ne_true (not_passes hnone)

theorem disagrees_result_iff :
    (plan.result name r).disagrees = true ↔ plan.policyDiff = true ∧ plan.Flips r := by
  rw [result]
  obtain ⟨f, hf, hfixture⟩ | ⟨e, hnone, hfixture⟩ :=
    r.fixture_cases (plan.candidatePath name) (plan.referencePath name)
  · have hdisagrees : (plan.judge name (.ok f)).disagrees = (plan.policyDiff &&
        (f.verdict plan.other).isAgreement != (f.verdict plan.primary).isAgreement) := rfl
    rw [hfixture, hdisagrees, Bool.and_eq_true, bne_iff_ne, plan.flips_iff hf]
  · rw [hfixture]
    exact iff_of_false Bool.false_ne_true fun h => not_flips hnone h.2

instance : Decidable (plan.Passes r) :=
  decidable_of_iff ((plan.result "" r).passed = true) passed_result_iff

-- A plan that asks for the other policy reports whether the verdict flips.
instance : Decidable (plan.Flips r) :=
  decidable_of_iff (({ plan with policyDiff := true }.result "" r).disagrees = true)
    (disagrees_result_iff.trans (and_iff_right rfl))

theorem passed_result : (plan.result name r).passed = decide (plan.Passes r) :=
  Bool.eq_iff_iff.mpr (passed_result_iff.trans decide_eq_true_iff.symm)

theorem disagrees_result :
    (plan.result name r).disagrees = decide (plan.policyDiff = true ∧ plan.Flips r) :=
  Bool.eq_iff_iff.mpr (disagrees_result_iff.trans decide_eq_true_iff.symm)

/-- What a batch writes on a fixture. -/
def line (plan : BatchPlan) (name : String) (r : Readings) : String :=
  fixtureLine plan name (plan.Passes r) (plan.policyDiff ∧ plan.Flips r)

theorem line_result : (plan.result name r).line = plan.line name r := by
  rw [line, ← passed_result, ← disagrees_result]
  exact line_judge plan name _

end BatchPlan

end TreeAccord.Cli
