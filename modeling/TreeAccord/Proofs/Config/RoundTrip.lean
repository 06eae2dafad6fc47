import TreeAccord.Config.Reading
import TreeAccord.Config.Writing
import TreeAccord.Proofs.Json.Library

/-! # Settings that are written and read again

Settings are read as they were, from the compact and the pretty form that a library for JSON gives
them, as long as the library keeps its laws. With the one at hand they are read from every other
spelling too. -/

namespace TreeAccord

open Json

section

variable {lib : Library} {Reads : {α : Type} → lib.Reader α → Json → α → Prop}
  (laws : lib.Lawful Reads)
include laws

theorem reads_texts (items : List String) : Reads (lib.list lib.text) (textsJson items) items :=
  laws.reads_list fun s _ => laws.reads_text s

theorem NamePolicy.reads (p : NamePolicy) : Reads (NamePolicy.reader lib) (.text p.name) p :=
  laws.reads_choice (NamePolicy.ofName?_name p)

/-! ## Pairs and wrappers -/

theorem RulePair.reads (p : RulePair) : Reads (lib.record (RulePair.shape lib)) p.toJson p :=
  laws.reads_record (by simp [shape])
    (laws.stored_field (laws.reads_text p.candidate)
    (laws.stored_field (laws.reads_text p.reference) .nil))

theorem Neighbours.reads (p : Neighbours) : Reads (lib.record (Neighbours.shape lib)) p.toJson p :=
  laws.reads_record (by simp [shape])
    (laws.stored_field (laws.reads_text p.first)
    (laws.stored_field (laws.reads_text p.second) .nil))

theorem SigilFold.reads (m : SigilFold) : Reads (lib.record (SigilFold.shape lib)) m.toJson m :=
  laws.reads_record (by simp [shape])
    (laws.stored_field (laws.reads_text m.sigil)
    (laws.stored_field (laws.reads_text m.nextRule) .nil))

/-- A wrapper without exception leaves the field out. -/
theorem Wrapper.reads (w : Wrapper) : Reads (lib.record (Wrapper.shape lib)) w.toJson w := by
  obtain ⟨rule, unlessParent?⟩ := w
  cases unlessParent? with
  | none =>
      exact laws.reads_record (by simp [shape])
        (laws.stored_field (laws.reads_text rule) (.skip rfl .nil))
  | some parent =>
      exact laws.reads_record (by simp [shape])
        (laws.stored_field (laws.reads_text rule)
        (laws.stored_field (laws.reads_textOrNull parent) .nil))

/-! ## Sides and settings -/

theorem SideSettings.reads (p : SideSettings) :
    Reads (lib.record (SideSettings.shape lib)) p.toJson p :=
  laws.reads_record (by simp [shape])
    (laws.stored_field (reads_texts laws p.irrelevantRules)
    (laws.stored_field (reads_texts laws p.irrelevantRuleFragments)
    (laws.stored_field (reads_texts laws p.irrelevantTexts)
    (laws.stored_field (reads_texts laws p.irrelevantTokenKinds)
    (laws.stored_field (reads_texts laws p.emptyBlockRules)
    (laws.stored_field (reads_texts laws p.alwaysListRules)
    (laws.stored_field (laws.reads_list fun _ _ => Wrapper.reads laws _)
    (laws.stored_field (reads_texts laws p.splitTokens)
    (laws.stored_field (reads_texts laws p.splitSigils)
    (laws.stored_field (laws.reads_list fun _ _ => Neighbours.reads laws _)
    (laws.stored_field (laws.reads_list fun _ _ => SigilFold.reads laws _) .nil)))))))))))

theorem Settings.reads (s : Settings) : Reads (lib.record (Settings.shape lib)) s.toJson s :=
  laws.reads_record (by simp [shape])
    (laws.stored_field (NamePolicy.reads laws s.namePolicy)
    (laws.stored_field (laws.reads_list fun _ _ => RulePair.reads laws _)
    (laws.stored_field (laws.reads_list fun _ _ => RulePair.reads laws _)
    (laws.stored_field (SideSettings.reads laws s.candidate)
    (laws.stored_field (SideSettings.reads laws s.reference) .nil)))))

/-- With any library that reads what it has written, settings are read as they were. -/
theorem Settings.read_written (s : Settings) :
    Settings.read lib (lib.pretty s.toJson) = .ok s ∧
      Settings.read lib (lib.compact s.toJson) = .ok s :=
  ⟨laws.whole_pretty (Settings.reads laws s), laws.whole_compact (Settings.reads laws s)⟩

end

namespace Settings

/-- Settings are read from every spelling, whatever gaps are around it. -/
theorem ofJson_spelled (s : Settings) {gap cs gap' : List Char} (hgap : Gap gap)
    (hspells : Spells s.toJson cs) (hgap' : Gap gap') :
    ofJson (String.ofList (gap ++ (cs ++ gap'))) = .ok s :=
  readWhole_spelled (Settings.reads Library.lawful_standard s) hgap hspells hgap'

/-- Settings are read from what is printed of them, which ends with a line. -/
theorem ofJson_printed (s : Settings) : ofJson (s.pretty ++ "\n") = .ok s := by
  have hend : Gap ['\n'] := by simp [Gap, isGap]
  have h := s.ofJson_spelled gap_nil (spells_prettyAt 0 s.toJson) hend
  rwa [List.nil_append, String.ofList_append, String.ofList_toList] at h

/-- Both written forms of settings are read as the settings. -/
theorem ofJson_written (s : Settings) : ofJson s.pretty = .ok s ∧ ofJson s.compact = .ok s :=
  read_written Library.lawful_standard s

end Settings

end TreeAccord
