import TreeAccord.Proofs.Config.Scan
import Mathlib.Data.Finset.Card
import Mathlib.Data.List.Induction

/-! # What a table of rules holds

Plain pairs are gathered under the candidate's name, each once; a pair with a star on either side goes
to the patterns as often as it is written. So a table relates what the written pairs stand for, and
its size counts different plain pairs and all others. -/

namespace TreeAccord

/-! ## Written names -/

/-- What a written name stands for: with a star at its end, for all names that begin with the rest,
and otherwise for itself. -/
inductive StandsFor : String → String → Prop where
  | leading (start ending : String) : StandsFor (start ++ "*") (start ++ ending)
  | itself {name : String} (plain : Text.ends "*" name = false) : StandsFor name name

theorem Text.ends_star_iff (text : String) :
    Text.ends "*" text = true ↔ ∃ start, text = start ++ "*" := by
  rw [Text.ends_iff]
  constructor
  · rintro ⟨start, hstart⟩
    refine ⟨String.ofList start, ?_⟩
    rw [← String.toList_inj, String.toList_append, String.toList_ofList, hstart]
  · rintro ⟨start, rfl⟩
    rw [String.toList_append]
    exact List.suffix_append _ _

theorem Text.leads_iff_append (start text : String) :
    Text.leads start text = true ↔ ∃ ending, text = start ++ ending := by
  rw [Text.leads_iff]
  constructor
  · rintro ⟨ending, hending⟩
    refine ⟨String.ofList ending, ?_⟩
    rw [← String.toList_inj, String.toList_append, String.toList_ofList, hending]
  · rintro ⟨ending, rfl⟩
    rw [String.toList_append]
    exact List.prefix_append _ _

theorem StandsFor.star_iff (start name : String) :
    StandsFor (start ++ "*") name ↔ ∃ ending, name = start ++ ending := by
  constructor
  · generalize htext : start ++ "*" = text
    intro h
    cases h with
    | leading start' ending =>
        obtain rfl := (String.append_left_inj "*").mp htext
        exact ⟨ending, rfl⟩
    | itself plain =>
        rw [(Text.ends_star_iff _).mpr ⟨start, htext.symm⟩] at plain
        cases plain
  · rintro ⟨ending, rfl⟩
    exact .leading start ending

theorem StandsFor.plain_iff {text : String} (plain : Text.ends "*" text = false) (name : String) :
    StandsFor text name ↔ text = name := by
  constructor
  · intro h
    cases h with
    | leading start ending =>
        rw [(Text.ends_star_iff _).mpr ⟨start, rfl⟩] at plain
        cases plain
    | itself => rfl
  · rintro rfl
    exact .itself plain

namespace NamePattern

theorem ofText_star (start : String) : ofText (start ++ "*") = .leading start := by
  have hstar : (start ++ "*").toList = start.toList ++ ['*'] := String.toList_append
  simp only [ofText, hstar, Text.dropTail?_append, String.ofList_toList]

theorem ofText_plain {text : String} (plain : Text.ends "*" text = false) :
    ofText text = .exactly text := by
  have hnone : Text.dropTail? ['*'] text.toList = none := if_neg (Bool.not_eq_true _ ▸ plain)
  rw [ofText, hnone]

/-- A pattern admits the names that its text stands for. -/
theorem admits_ofText_iff (text name : String) :
    (ofText text).admits name = true ↔ StandsFor text name := by
  cases hends : Text.ends "*" text with
  | true =>
      obtain ⟨start, rfl⟩ := (Text.ends_star_iff text).mp hends
      rw [ofText_star, admits, Text.leads_iff_append, StandsFor.star_iff]
  | false => rw [ofText_plain hends, admits, beq_iff_eq, StandsFor.plain_iff hends]

end NamePattern

/-! ## Written pairs -/

namespace RulePair

/-- Whether neither name ends in a star. -/
def isPlain (pair : RulePair) : Bool :=
  !Text.ends "*" pair.candidate && !Text.ends "*" pair.reference

theorem covers_iff (pair : RulePair) (candidate reference : String) :
    pair.covers candidate reference = true ↔
      StandsFor pair.candidate candidate ∧ StandsFor pair.reference reference := by
  rw [covers, Bool.and_eq_true, NamePattern.admits_ofText_iff, NamePattern.admits_ofText_iff]

end RulePair

/-! ## One pair more -/

/-- A list has one different member more, unless the new one is there already. -/
theorem card_toFinset_concat {α : Type} [DecidableEq α] (xs : List α) (x : α) :
    (xs ++ [x]).toFinset.card = xs.toFinset.card + if x ∈ xs then 0 else 1 := by
  have hinsert : (xs ++ [x]).toFinset = insert x xs.toFinset := by
    ext y
    simp
  rw [hinsert, Finset.card_insert_eq_ite]
  simp only [List.mem_toFinset]
  split <;> rfl

namespace Groups

/-- The number of values under all keys. -/
def valueCount {α : Type} (g : Groups α) : Nat := g.foldr (fun entry n => entry.2.length + n) 0

/-- Only the values under the changed key are counted anew. -/
theorem valueCount_alter {α : Type} (g : Groups α) (key : String) (f : List α → List α) :
    (g.alter key f).valueCount + ((g.find? key).getD []).length =
      g.valueCount + (f ((g.find? key).getD [])).length := by
  induction g with
  | nil => simp [alter, find?, valueCount]
  | cons entry rest ih =>
      obtain ⟨k, values⟩ := entry
      simp only [valueCount] at ih
      by_cases hk : k = key
      · simp [alter, find?, valueCount, hk]
        omega
      · simp [alter, find?, valueCount, hk]
        omega

end Groups

namespace Correspondence

variable (t : Correspondence) {pair : RulePair}

/-- Whether the plain pair stands in the table. -/
def lists (t : Correspondence) (pair : RulePair) : Bool :=
  (t.exact.find? pair.candidate).any fun names => names.contains pair.reference

theorem lists_iff :
    t.lists pair = true ↔ pair.reference ∈ (t.exact.find? pair.candidate).getD [] := by
  rw [lists]
  cases t.exact.find? pair.candidate <;> simp

theorem size_eq : t.size = t.exact.valueCount + t.patterns.length := by
  rw [size, Groups.valueCount]
  induction t.exact with
  | nil => simp
  | cons entry rest ih => rw [List.foldr_cons, List.foldr_cons, ih, Nat.add_assoc]

theorem insert_plain (plain : pair.isPlain = true) :
    t.insert pair =
      { t with exact := t.exact.alter pair.candidate fun names =>
          if pair.reference ∈ names then names else names ++ [pair.reference] } := by
  obtain ⟨hcandidate, hreference⟩ : Text.ends "*" pair.candidate = false ∧
      Text.ends "*" pair.reference = false := by
    simpa [RulePair.isPlain] using plain
  rw [insert, NamePattern.ofText_plain hcandidate, NamePattern.ofText_plain hreference]

theorem insert_pattern (starred : pair.isPlain = false) :
    t.insert pair =
      { t with patterns := t.patterns ++
          [(NamePattern.ofText pair.candidate, NamePattern.ofText pair.reference)] } := by
  obtain ⟨candidate, reference⟩ := pair
  cases hcandidate : Text.ends "*" candidate with
  | true =>
      obtain ⟨start, rfl⟩ := (Text.ends_star_iff candidate).mp hcandidate
      rw [insert, NamePattern.ofText_star]
  | false =>
      have hreference : Text.ends "*" reference = true := by
        simpa [RulePair.isPlain, hcandidate] using starred
      obtain ⟨start, rfl⟩ := (Text.ends_star_iff reference).mp hreference
      rw [insert, NamePattern.ofText_plain hcandidate, NamePattern.ofText_star]

/-- A table grows by one, unless it lists the plain pair already. -/
theorem size_insert :
    (t.insert pair).size =
      t.size + if pair.isPlain = true ∧ t.lists pair = true then 0 else 1 := by
  cases hplain : pair.isPlain with
  | true =>
      rw [insert_plain t hplain, size_eq, size_eq]
      have hcount := t.exact.valueCount_alter pair.candidate fun names =>
        if pair.reference ∈ names then names else names ++ [pair.reference]
      simp only [lists_iff, true_and]
      split at hcount
      · rename_i hmem
        rw [if_pos hmem]
        omega
      · rename_i hmem
        rw [if_neg hmem]
        rw [List.length_append, List.length_singleton] at hcount
        omega
  | false =>
      rw [insert_pattern t hplain, size_eq, size_eq, List.length_append, List.length_singleton]
      simp [Nat.add_assoc]

/-- A table lists one plain pair more, and patterns are not listed. -/
theorem lists_insert (other : RulePair) :
    (t.insert pair).lists other = (t.lists other || (pair.isPlain && pair == other)) := by
  cases hplain : pair.isPlain with
  | true =>
      have hother : (pair == other) =
          (pair.candidate == other.candidate && pair.reference == other.reference) := by
        rw [Bool.eq_iff_iff]
        obtain ⟨c, r⟩ := pair
        obtain ⟨c', r'⟩ := other
        simp
      rw [insert_plain t hplain, lists, any_contains_find?_alter, hother, Bool.true_and, lists]
  | false => rw [insert_pattern t hplain, lists, lists, Bool.false_and, Bool.or_false]

/-! ## All pairs -/

variable (pairs : List RulePair)

theorem ofPairs_concat (pair : RulePair) :
    ofPairs (pairs ++ [pair]) = (ofPairs pairs).insert pair :=
  List.foldl_concat ..

theorem lists_ofPairs_iff (pair : RulePair) :
    (ofPairs pairs).lists pair = true ↔ pair ∈ pairs.filter RulePair.isPlain := by
  induction pairs using List.reverseRecOn with
  | nil => simp [ofPairs, lists, Groups.find?]
  | append_singleton pairs last ih =>
      rw [ofPairs_concat, lists_insert, Bool.or_eq_true, ih, List.filter_append, List.mem_append]
      refine or_congr Iff.rfl ?_
      rw [Bool.and_eq_true, beq_iff_eq, List.mem_filter, List.mem_singleton]
      constructor
      · rintro ⟨hplain, rfl⟩
        exact ⟨rfl, hplain⟩
      · rintro ⟨rfl, hplain⟩
        exact ⟨hplain, rfl⟩

theorem size_ofPairs :
    (ofPairs pairs).size =
      (pairs.filter RulePair.isPlain).toFinset.card +
        (pairs.filter fun pair => !pair.isPlain).length := by
  induction pairs using List.reverseRecOn with
  | nil => rfl
  | append_singleton pairs last ih =>
      simp only [ofPairs_concat, size_insert, ih, lists_ofPairs_iff, List.filter_append]
      cases hplain : last.isPlain with
      | true =>
          rw [List.filter_cons_of_pos hplain, List.filter_nil, card_toFinset_concat]
          simp [hplain]
          omega
      | false => simp [hplain, Nat.add_assoc]

theorem isEmpty_ofPairs_iff : (ofPairs pairs).isEmpty = true ↔ pairs = [] := by
  rw [isEmpty, beq_iff_eq, size_ofPairs, Nat.add_eq_zero_iff, Finset.card_eq_zero,
    List.toFinset_eq_empty_iff, List.length_eq_zero_iff, List.filter_eq_nil_iff,
    List.filter_eq_nil_iff]
  constructor
  · rintro ⟨hplain, hstarred⟩
    refine List.eq_nil_iff_forall_not_mem.mpr fun pair hpair => hplain pair hpair ?_
    simpa using hstarred pair hpair
  · rintro rfl
    simp

theorem relates_ofPairs_iff (candidate reference : String) :
    (ofPairs pairs).relates candidate reference = true ↔
      ∃ pair ∈ pairs, StandsFor pair.candidate candidate ∧ StandsFor pair.reference reference := by
  simp only [relates_ofPairs, List.any_eq_true, RulePair.covers_iff]

/-- A table relates two rules exactly if a written pair stands for them, and the other way round if
all pairs are flipped. It counts different plain pairs once and every pair with a star, and so it is
empty only if nothing is written. -/
theorem ofPairs_scanned :
    (∀ candidate reference, (ofPairs pairs).relates candidate reference = true ↔
      ∃ pair ∈ pairs,
        StandsFor pair.candidate candidate ∧ StandsFor pair.reference reference) ∧
    (ofPairs pairs).size =
      (pairs.filter RulePair.isPlain).toFinset.card +
        (pairs.filter fun pair => !pair.isPlain).length ∧
    ((ofPairs pairs).isEmpty = true ↔ pairs = []) ∧
    ∀ candidate reference, (ofPairs (pairs.map RulePair.flip)).relates reference candidate = true ↔
      (ofPairs pairs).relates candidate reference = true := by
  refine ⟨relates_ofPairs_iff pairs, size_ofPairs pairs, isEmpty_ofPairs_iff pairs, ?_⟩
  intro candidate reference
  rw [relates_ofPairs_flip]

example : (ofPairs [⟨"A", "B"⟩, ⟨"File", "Root*"⟩, ⟨"A", "B"⟩, ⟨"File", "Root*"⟩]).size = 3 := by
  decide

end Correspondence

end TreeAccord
