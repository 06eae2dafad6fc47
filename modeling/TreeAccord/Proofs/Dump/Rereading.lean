import TreeAccord.Proofs.Dump.Grammar
import TreeAccord.Proofs.Dump.Splitting
import Mathlib.Data.List.DropRight

/-! # Entries that are read, written and read again

The reader takes the kind of white space or of an error element also from the line of another rule.
The printer goes by the kind alone, and so writes a line that may be read as something else. Any other
entry is written so that it is read as it was. -/

namespace TreeAccord

/-! ## Trimmed texts -/

namespace Text

theorem trimEnd_eq_rdropWhile (cs : List Char) : trimEnd cs = cs.rdropWhile isBlank := rfl

@[simp] theorem trimEnd_trimEnd (cs : List Char) : trimEnd (trimEnd cs) = trimEnd cs :=
  List.rdropWhile_idempotent isBlank cs

/-- What trimming leaves begins and ends in no blank, so that trimming it again changes nothing. -/
theorem trim_trim (cs : List Char) : trim (trim cs) = trim cs := by
  have hstart : trimStart (trim cs) = trim cs := by
    obtain ⟨tail, htail⟩ := List.rdropWhile_prefix isBlank (trimStart cs)
    rw [← trimEnd_eq_rdropWhile, ← trim] at htail
    have hhead := List.head?_dropWhile_not isBlank cs
    rw [← trimStart, ← htail] at hhead
    cases hcs : trim cs with
    | nil => rfl
    | cons c rest =>
        rw [hcs] at hhead
        exact List.dropWhile_cons_of_neg (by simpa using hhead)
  rw [trim, hstart]
  exact trimEnd_trimEnd _

theorem trimEnd_ne_nil {cs : List Char} (filled : cs.all isBlank = false) : trimEnd cs ≠ [] := by
  obtain ⟨c, hc, hsolid⟩ := List.all_eq_false.mp filled
  rw [trimEnd_eq_rdropWhile, ne_eq, List.rdropWhile_eq_nil_iff]
  exact fun hall => hsolid (hall c hc)

theorem trim_ne_nil {cs : List Char} (filled : cs.all isBlank = false) : trim cs ≠ [] := by
  obtain ⟨c, hc, hsolid⟩ := List.all_eq_false.mp filled
  rw [← List.takeWhile_append_dropWhile (p := isBlank) (l := cs)] at hc
  rcases List.mem_append.mp hc with hc | hc
  · exact absurd (List.mem_takeWhile_imp hc) hsolid
  · exact trimEnd_ne_nil (List.all_eq_false.mpr ⟨c, hc, hsolid⟩)

theorem mem_of_mem_trim {c : Char} {cs : List Char} (h : c ∈ trim cs) : c ∈ cs :=
  (List.dropWhile_suffix isBlank).subset ((List.rdropWhile_prefix isBlank (trimStart cs)).subset h)

end Text

namespace Dump

/-! ## What an entry can say -/

/-- What can be read from an entry: a node that can be read again, or a token of a sentinel's kind in
the line of another rule. -/
inductive Readable : String → Option Token → Prop where
  | safe {rule : String} {token? : Option Token} (h : NodeSafe rule token?) : Readable rule token?
  | strayWhiteSpace {rule text : String} (name : NameSafe rule) (lineFeed : '\n' ∉ text.toList) :
      Readable rule (some ⟨whiteSpaceRule, text⟩)
  | strayError {rule : String} (name : NameSafe rule) (text : String) :
      Readable rule (some ⟨errorRule, text⟩)

theorem dropFinal?_isPrefix {c : Char} {cs front : List Char} (h : dropFinal? c cs = some front) :
    front <+: cs := by
  unfold dropFinal? at h
  split at h
  · obtain rfl := Option.some.inj h
    exact List.dropLast_prefix cs
  · cases h

theorem getD_dropFinal?_sublist (c : Char) (cs : List Char) :
    ((dropFinal? c cs).getD cs).Sublist cs := by
  cases h : dropFinal? c cs with
  | none => exact List.Sublist.refl cs
  | some front => exact (dropFinal?_isPrefix h).sublist

theorem unquote_sublist (cs : List Char) : (unquote cs).Sublist cs := by
  unfold unquote
  split
  · rename_i rest
    cases h : dropFinal? '\'' rest with
    | none => exact List.Sublist.refl _
    | some front => exact (dropFinal?_isPrefix h).sublist.cons _
  · exact List.Sublist.refl cs

theorem payloadText_sublist (payload : List Char) : (payloadText payload).Sublist payload := by
  unfold payloadText
  split
  · rename_i rest
    exact ((unquote_sublist _).trans (getD_dropFinal?_sublist ')' rest)).cons _
  · exact (unquote_sublist _).trans (getD_dropFinal?_sublist ')' _)

theorem outerPayload_subset (entry : List Char) : outerPayload entry ⊆ entry := by
  rcases outerPayload_delimited entry with hempty | ⟨before, after, hentry⟩
  · rw [hempty]
    exact List.nil_subset entry
  · intro c hc
    rw [hentry]
    simp [hc]

section

variable {entry : List Char} (feeds : '\n' ∉ entry) (head : entry.head? ≠ some ' ')
  (whiteSpace : whiteSpaceRule.toList.isPrefixOf entry = false)
  (error : errorRule.toList.isPrefixOf entry = false)
include feeds head whiteSpace error

/-- The front part of an entry without parentheses names a rule that is told apart. -/
theorem nameSafe_of_isPrefix {front : List Char} (h : front <+: entry) (parenthesis : '(' ∉ front) :
    NameSafe (String.ofList front) := by
  have hbegins : ∀ word : List Char, word.isPrefixOf entry = false → word.isPrefixOf front = false := by
    intro word hword
    rw [Bool.eq_false_iff, ne_eq, List.isPrefixOf_iff_prefix] at hword ⊢
    exact fun hfront => hword (hfront.trans h)
  refine ⟨?_, ?_, ?_, ?_, ?_⟩
  all_goals rw [String.toList_ofList]
  · exact parenthesis
  · exact fun hfeed => feeds (h.subset hfeed)
  · intro hspace
    obtain ⟨tail, rfl⟩ := h
    exact head (by rw [List.head?_append, hspace]; rfl)
  · exact hbegins _ whiteSpace
  · exact hbegins _ error

/-- A token's line gives an ordinary token, or a stray one. -/
theorem readable_token {rule kind : List Char} (text : List Char) (hrule : rule <+: entry)
    (parenthesis : '(' ∉ rule) (hkind : kind ⊆ entry) (closing : ')' ∉ kind)
    (htext : text ⊆ entry) :
    Readable (String.ofList rule) (some ⟨String.ofList kind,
      (parenthesis? (String.ofList kind)).getD (String.ofList text)⟩) := by
  have name := nameSafe_of_isPrefix feeds head whiteSpace error hrule parenthesis
  by_cases hwhite : String.ofList kind = whiteSpaceRule
  · rw [hwhite]
    exact .strayWhiteSpace name (by simpa [parenthesis?, whiteSpaceRule] using fun h => feeds (htext h))
  by_cases herror : String.ofList kind = errorRule
  · rw [herror]
    exact .strayError name _
  · refine .safe (.ordinary name ?_ ?_ ?_ ?_ ?_)
    · rwa [String.toList_ofList]
    · rw [String.toList_ofList]
      exact fun hfeed => feeds (hkind hfeed)
    · simp [isSentinel, hwhite, herror]
    · intro hleft
      simp [parenthesis?, hleft]
    · intro hright
      simp [parenthesis?, hright]

end

theorem readable_splitEntry {entry : List Char} (feeds : '\n' ∉ entry)
    (head : entry.head? ≠ some ' ') (filled : entry.all Text.isBlank = false) :
    Readable (splitEntry entry).1 (splitEntry entry).2 := by
  unfold splitEntry
  split
  · refine .safe (.whiteSpace ?_)
    rw [String.toList_ofList]
    exact fun hfeed => feeds (outerPayload_subset entry hfeed)
  rename_i hwhite
  split
  · exact .safe .error
  rename_i herror
  rw [Bool.not_eq_true] at hwhite herror
  split
  · rename_i hcut
    have hparenthesis := (cutFirst?_eq_none_iff '(' entry).mp hcut
    have hfront : Text.trimEnd entry <+: entry := List.rdropWhile_prefix Text.isBlank entry
    refine .safe (.bare ?_ ?_ ?_)
    · exact nameSafe_of_isPrefix feeds head hwhite herror hfront
        fun h => hparenthesis (hfront.subset h)
    · intro hnil
      have hempty := congrArg String.toList hnil
      rw [String.toList_ofList] at hempty
      exact Text.trimEnd_ne_nil filled hempty
    · rw [String.toList_ofList, Text.trimEnd_trimEnd]
  · rename_i rule rest hcut
    obtain ⟨hentry, hparenthesis⟩ := cutFirst?_eq_some hcut
    have hrule : rule <+: entry := ⟨'(' :: rest, hentry.symm⟩
    have hrest : rest ⊆ entry := by
      rw [hentry]
      simp
    cases hkind : cutFirst? ')' rest with
    | none =>
        have hclosing := (cutFirst?_eq_none_iff ')' rest).mp hkind
        exact readable_token feeds head hwhite herror _ hrule hparenthesis hrest hclosing
          (by simp [payloadText, unquote, dropFinal?])
    | some cut =>
        obtain ⟨kind, payload⟩ := cut
        obtain ⟨hcutrest, hclosing⟩ := cutFirst?_eq_some hkind
        refine readable_token feeds head hwhite herror _ hrule hparenthesis ?_ hclosing ?_
        · exact List.Subset.trans (by simp [hcutrest]) hrest
        · exact List.Subset.trans (payloadText_sublist payload).subset
            (List.Subset.trans (by simp [hcutrest]) hrest)

/-! ## What is read where an entry was written -/

/-- The entry takes one line and does not run into the indentation before it. -/
structure LineSafe (rule : String) (token? : Option Token) : Prop where
  lineFeed : '\n' ∉ (nodeEntry rule token?).toList
  space : (nodeEntry rule token?).toList.head? ≠ some ' '

theorem LineSafe.safe {rule : String} {token? : Option Token} (h : NodeSafe rule token?) :
    LineSafe rule token? :=
  ⟨lineFeed_not_mem_nodeEntry h, head?_nodeEntry h⟩

/-- What is read where an entry stands, if anything does. -/
def reread? (entry : List Char) : Option (String × Option Token) :=
  if (dropReturn entry).all Text.isBlank then none else some (splitEntry (dropReturn entry))

theorem reread?_of_endsSolid {entry : List Char} (h : EndsSolid entry) :
    reread? entry = some (splitEntry entry) := by
  rw [reread?, h.dropReturn_eq, h.not_blank]
  rfl

theorem reread?_nodeEntry {rule : String} {token? : Option Token} (h : NodeSafe rule token?) :
    reread? (nodeEntry rule token?).toList = some (rule, token?.map readBack) := by
  rw [reread?_of_endsSolid (endsSolid_nodeEntry h), splitEntry_nodeEntry h]

theorem escapeChar_of_ne {c : Char} (feed : c ≠ '\n') (carriage : c ≠ '\r') (tab : c ≠ '\t') :
    escapeChar c = [c] := by
  unfold escapeChar
  split
  · exact absurd rfl feed
  · exact absurd rfl carriage
  · exact absurd rfl tab
  · rfl

theorem escapeChar_of_mem_escapeChar {c d : Char} (h : d ∈ escapeChar c) : escapeChar d = [d] := by
  unfold escapeChar at h
  split at h
  · rcases List.mem_pair.mp h with rfl | rfl <;> rfl
  · rcases List.mem_pair.mp h with rfl | rfl <;> rfl
  · rcases List.mem_pair.mp h with rfl | rfl <;> rfl
  · rename_i hfeed hreturn htab
    obtain rfl := List.mem_singleton.mp h
    exact escapeChar_of_ne (fun h => hfeed h) (fun h => hreturn h) (fun h => htab h)

/-- A text in which no character is escaped is written as it is. -/
theorem escape_eq_self {text : String} (h : ∀ c ∈ text.toList, escapeChar c = [c]) :
    escape text = text := by
  rw [escape, List.flatMap_congr h, List.flatMap_singleton', String.ofList_toList]

theorem escapeChar_of_mem_escape {text : String} {d : Char} (h : d ∈ (escape text).toList) :
    escapeChar d = [d] := by
  rw [escape, String.toList_ofList] at h
  obtain ⟨c, -, hd⟩ := List.mem_flatMap.mp h
  exact escapeChar_of_mem_escapeChar hd

/-- What is escaped once stays as it is. -/
theorem escape_escape (text : String) : escape (escape text) = escape text :=
  escape_eq_self fun _ => escapeChar_of_mem_escape

theorem not_mem_escape {text : String} {c : Char} (h : escapeChar c ≠ [c]) :
    c ∉ (escape text).toList :=
  fun hc => h (escapeChar_of_mem_escape hc)

theorem nodeEntry_readBack (rule : String) (token? : Option Token) :
    nodeEntry rule (token?.map readBack) = nodeEntry rule token? := by
  cases token? with
  | none => rfl
  | some token =>
      obtain ⟨kind, text⟩ := token
      by_cases hwhite : kind = whiteSpaceRule
      · simp [readBack, hwhite]
      · simp [readBack, hwhite, nodeEntry, entry, escape_escape]

/-- The kind of a sentinel stands in the sentinel's own line only. -/
def KindAtHome (rule : String) (token? : Option Token) : Prop :=
  ∀ token ∈ token?, isSentinel token.kind = true → rule = token.kind

instance (rule : String) (token? : Option Token) : Decidable (KindAtHome rule token?) :=
  inferInstanceAs (Decidable (∀ token ∈ token?, isSentinel token.kind = true → rule = token.kind))

namespace Readable

variable {rule : String} {token? : Option Token}

theorem nodeSafe (h : Readable rule token?) (home : KindAtHome rule token?) :
    NodeSafe rule token? := by
  cases h with
  | safe h => exact h
  | strayWhiteSpace name lineFeed =>
      have hsentinel : isSentinel whiteSpaceRule = true := by decide
      obtain rfl : rule = whiteSpaceRule := home _ rfl hsentinel
      exact absurd name.whiteSpace (by decide)
  | strayError name text =>
      have hsentinel : isSentinel errorRule = true := by decide
      obtain rfl : rule = errorRule := home _ rfl hsentinel
      exact absurd name.error (by decide)

theorem lineFeed_not_mem (h : Readable rule token?) : '\n' ∉ (nodeEntry rule token?).toList := by
  cases h with
  | safe h => exact lineFeed_not_mem_nodeEntry h
  | strayWhiteSpace name lineFeed => simp [nodeEntry_whiteSpace, name.lineFeed, lineFeed]
  | strayError name text =>
      rw [nodeEntry_error]
      exact name.lineFeed

theorem head?_ne (h : Readable rule token?) : (nodeEntry rule token?).toList.head? ≠ some ' ' := by
  cases h with
  | safe h => exact head?_nodeEntry h
  | strayWhiteSpace name lineFeed =>
      rw [nodeEntry_whiteSpace]
      exact head?_append_parenthesis name.space _
  | strayError name text =>
      rw [nodeEntry_error]
      exact name.space

theorem lineSafe (h : Readable rule token?) : LineSafe rule token? := ⟨h.lineFeed_not_mem, h.head?_ne⟩

/-- What is read where a readable node was written is readable again. -/
theorem of_reread (h : Readable rule token?) {rule' : String} {token?' : Option Token}
    (hread : reread? (nodeEntry rule token?).toList = some (rule', token?')) :
    Readable rule' token?' := by
  unfold reread? at hread
  split at hread
  · cases hread
  · rename_i hfilled
    rw [Bool.not_eq_true] at hfilled
    have hfeeds := fun hfeed => h.lineFeed_not_mem ((dropReturn_isPrefix _).subset hfeed)
    have hreadable := readable_splitEntry hfeeds (head?_dropReturn h.head?_ne) hfilled
    rw [Option.some.inj hread] at hreadable
    exact hreadable

/-- A node without a token is read as one. -/
theorem reread?_bare (h : Readable rule none) :
    reread? (nodeEntry rule none).toList = some (rule, none) := by
  cases h with
  | safe h => exact reread?_nodeEntry h

end Readable

/-! ## Entries that are written again as they were -/

/-- No entry without a parenthesis is read as a token of an ordinary rule. -/
theorem reread?_ne_of_bare {rule : String} (name : NameSafe rule) (token : Token) :
    reread? rule.toList ≠ some (rule, some token) := by
  have hfront := dropReturn_isPrefix rule.toList
  have hname := nameSafe_of_isPrefix name.lineFeed name.space name.whiteSpace name.error hfront
    fun h => name.parenthesis (hfront.subset h)
  have hcut := (cutFirst?_eq_none_iff '(' _).mpr hname.parenthesis
  have hwhite := hname.whiteSpace
  have herror := hname.error
  rw [String.toList_ofList] at hcut hwhite herror
  intro hread
  unfold reread? at hread
  split at hread
  · cases hread
  · rw [splitEntry, hwhite, herror, hcut] at hread
    obtain ⟨-, htoken⟩ := Prod.mk.inj (Option.some.inj hread)
    cases htoken

/-- In the line of an ordinary rule a token's text leaves out the kind before it, so it is never all
that stands between the parentheses. -/
theorem splitEntry_ne_of_stray {rule text : String} (name : NameSafe rule) :
    splitEntry (rule.toList ++ '(' :: (text.toList ++ [')'])) ≠
      (rule, some ⟨whiteSpaceRule, text⟩) := by
  have hwhite := isPrefixOf_append_parenthesis (by decide) name.whiteSpace (text.toList ++ [')'])
  have herror := isPrefixOf_append_parenthesis (by decide) name.error (text.toList ++ [')'])
  intro hsplit
  simp only [splitEntry, hwhite, herror, cutFirst?_append name.parenthesis, Bool.false_eq_true,
    if_false] at hsplit
  cases hcut : cutFirst? ')' (text.toList ++ [')']) with
  | none =>
      have hclosing := (cutFirst?_eq_none_iff ')' _).mp hcut
      simp at hclosing
  | some cut =>
      obtain ⟨kind, payload⟩ := cut
      obtain ⟨htext, -⟩ := cutFirst?_eq_some hcut
      rw [hcut] at hsplit
      obtain ⟨-, htoken⟩ := Prod.mk.inj hsplit
      obtain ⟨hkind, hpayload⟩ := Token.mk.inj (Option.some.inj htoken)
      dsimp only [Option.getD_some] at hkind hpayload
      have hnone : parenthesis? whiteSpaceRule = none := by decide
      rw [hkind, hnone, Option.getD_none] at hpayload
      have hlong : 0 < kind.length := by
        rw [← String.toList_ofList (l := kind), hkind]
        decide
      have hshort := (payloadText_sublist payload).length_le
      have hlength := congrArg List.length htext
      rw [← hpayload, String.toList_ofList] at hlength
      simp only [List.length_append, List.length_cons, List.length_nil] at hlength
      omega

/-- A node that is read where it was written is no stray token. -/
theorem Readable.nodeSafe_of_reread {rule : String} {token? : Option Token}
    (h : Readable rule token?)
    (hread : reread? (nodeEntry rule token?).toList = some (rule, token?)) :
    NodeSafe rule token? := by
  cases h with
  | safe h => exact h
  | @strayWhiteSpace text name lineFeed =>
      have hsolid : EndsSolid (rule.toList ++ '(' :: (text.toList ++ [')'])) :=
        (endsSolid_concat (by decide) ('(' :: text.toList)).append_left _
      rw [nodeEntry_whiteSpace, reread?_of_endsSolid hsolid, Option.some.injEq] at hread
      exact absurd hread (splitEntry_ne_of_stray name)
  | strayError name text =>
      rw [nodeEntry_error] at hread
      exact absurd hread (reread?_ne_of_bare name _)

/-- The entry can be written for a node that is read as it was. -/
def Steady (rule : String) (token? : Option Token) : Prop :=
  ∃ rule' token?', NodeSafe rule' token?' ∧ nodeEntry rule' token?' = nodeEntry rule token?

/-- Such entries are those that are written again as they were. -/
theorem steady_iff {rule : String} {token? : Option Token} (h : Readable rule token?) :
    Steady rule token? ↔ ∃ rule' token?',
      reread? (nodeEntry rule token?).toList = some (rule', token?') ∧
        nodeEntry rule' token?' = nodeEntry rule token? := by
  constructor
  · rintro ⟨rule', token?', hsafe, hentry⟩
    rw [← hentry]
    exact ⟨rule', token?'.map readBack, reread?_nodeEntry hsafe, nodeEntry_readBack rule' token?'⟩
  · rintro ⟨rule', token?', hread, hentry⟩
    have hreadable := h.of_reread hread
    rw [← hentry] at hread
    exact ⟨rule', token?', hreadable.nodeSafe_of_reread hread, hentry⟩

end Dump

end TreeAccord
