import TreeAccord.Dump.Report
import TreeAccord.Proofs.Dump.Lines
import TreeAccord.Proofs.Dump.Reading

/-! # Where faults stand

Lines are numbered and placed while the text is cut, before carriage returns are dropped and blank
lines are left out. A fault takes its place from the line it is found in, so it is the place of a
whole line of the text, and what a report marks is that line. -/

namespace TreeAccord.Dump

/-! ## Lines in their text -/

/-- What may follow a line: the end of the text or a line feed, with or without one carriage return
before it. -/
inductive AfterLine : List Char → Prop where
  | done : AfterLine []
  | lineFeed (rest : List Char) : AfterLine ('\n' :: rest)
  | returned : AfterLine ['\r']
  | returnedLineFeed (rest : List Char) : AfterLine ('\r' :: '\n' :: rest)

/-- A place is that of a line of the text: between what stands before it and what stands after it,
with as many line feeds before it as there are earlier lines. -/
structure Place.Holds (place : Place) (text before line after : List Char) : Prop where
  split : text = before ++ line ++ after
  start_eq : place.start = Text.byteCount before
  stop_eq : place.stop = Text.byteCount (before ++ line)
  begins : before = [] ∨ ∃ earlier, before = earlier ++ ['\n']
  unbroken : '\n' ∉ line
  ends : AfterLine after
  /-- One carriage return is left out where the line ends in any. -/
  returned : line.getLast? = some '\r' → ∃ rest, after = '\r' :: rest
  number_eq : place.line = 1 + before.count '\n'

/-- A text is its first piece and each other piece behind a line feed. -/
theorem pieces_split (cs : List Char) :
    ∃ p ps, pieces cs = p :: ps ∧ cs = p ++ ps.flatMap ('\n' :: ·) := by
  induction cs with
  | nil => exact ⟨[], [], rfl, rfl⟩
  | cons c cs ih =>
      obtain ⟨p, ps, hpieces, hcs⟩ := ih
      by_cases hc : c = '\n'
      · refine ⟨[], p :: ps, ?_, ?_⟩
        · rw [hc, pieces_lineFeed, hpieces]
        · rw [hc, hcs]
          rfl
      · obtain ⟨p', ps', htail, hcons⟩ := pieces_cons hc cs
        rw [hpieces, List.cons.injEq] at htail
        obtain ⟨rfl, rfl⟩ := htail
        exact ⟨c :: p, ps, hcons, by rw [hcs]; rfl⟩

/-- A piece is a line with or without a carriage return behind it. -/
theorem dropReturn_cases (piece : List Char) :
    piece = dropReturn piece ++ ['\r'] ∨
      piece = dropReturn piece ∧ piece.getLast? ≠ some '\r' := by
  unfold dropReturn
  split
  · rename_i hlast
    obtain ⟨front, rfl⟩ := List.getLast?_eq_some_iff.mp hlast
    exact .inl (by rw [List.dropLast_concat])
  · rename_i hlast
    exact .inr ⟨rfl, hlast⟩

theorem afterLine_pieces (ps : List (List Char)) : AfterLine (ps.flatMap ('\n' :: ·)) := by
  cases ps with
  | nil => exact .done
  | cons p ps => exact .lineFeed _

theorem afterLine_return_pieces (ps : List (List Char)) :
    AfterLine ('\r' :: ps.flatMap ('\n' :: ·)) := by
  cases ps with
  | nil => exact .returned
  | cons p ps => exact .returnedLineFeed _

variable {before : List Char}

theorem Line.exists_holds_first {p : List Char} (hfeeds : '\n' ∉ p)
    (hbegins : before = [] ∨ ∃ earlier, before = earlier ++ ['\n']) (ps : List (List Char)) :
    ∃ after, (Line.mk (1 + before.count '\n') (Text.byteCount before) (dropReturn p)).place.Holds
      (before ++ p ++ ps.flatMap ('\n' :: ·)) before (dropReturn p) after := by
  have hstop := (Text.byteCount_append before (dropReturn p)).symm
  have hunbroken : '\n' ∉ dropReturn p := fun hfeed => hfeeds ((dropReturn_isPrefix p).subset hfeed)
  rcases dropReturn_cases p with hp | ⟨hp, hlast⟩
  · refine ⟨_, ?_, rfl, hstop, hbegins, hunbroken, afterLine_return_pieces ps, fun _ => ⟨_, rfl⟩, rfl⟩
    nth_rewrite 1 [hp]
    simp
  · refine ⟨_, ?_, rfl, hstop, hbegins, hunbroken, afterLine_pieces ps, ?_, rfl⟩
    · rw [← hp]
    · rw [← hp]
      exact fun hreturn => absurd hreturn hlast

/-- Each numbered piece is a line at its place in the text, if the first one is. -/
theorem exists_holds_of_mem_number {line : Line} {p : List Char} {ps : List (List Char)}
    (hline : line ∈ number (1 + before.count '\n') (Text.byteCount before) (p :: ps))
    (hfeeds : ∀ piece ∈ p :: ps, '\n' ∉ piece)
    (hbegins : before = [] ∨ ∃ earlier, before = earlier ++ ['\n']) :
    ∃ front after,
      line.place.Holds (before ++ p ++ ps.flatMap ('\n' :: ·)) front line.chars after := by
  induction ps generalizing before p with
  | nil =>
      obtain rfl := List.mem_singleton.mp hline
      exact ⟨before, Line.exists_holds_first (hfeeds p List.mem_cons_self) hbegins []⟩
  | cons q ps ih =>
      obtain ⟨hp, hps⟩ := List.forall_mem_cons.mp hfeeds
      rcases List.mem_cons.mp hline with rfl | hline
      · exact ⟨before, Line.exists_holds_first hp hbegins (q :: ps)⟩
      · have hcount : 1 + before.count '\n' + 1 = 1 + (before ++ p ++ ['\n']).count '\n' := by
          rw [List.count_append, List.count_append, List.count_eq_zero_of_not_mem hp]
          rfl
        have hbytes : Text.byteCount before + Text.byteCount p + 1 =
            Text.byteCount (before ++ p ++ ['\n']) := by
          rw [Text.byteCount_append, Text.byteCount_append]
          rfl
        rw [hcount, hbytes] at hline
        obtain ⟨front, after, hholds⟩ := ih hline hps (.inr ⟨_, rfl⟩)
        have htext : before ++ p ++ ['\n'] ++ q ++ ps.flatMap ('\n' :: ·) =
            before ++ p ++ (q :: ps).flatMap ('\n' :: ·) := by
          simp
        rw [htext] at hholds
        exact ⟨front, after, hholds⟩

theorem exists_holds_of_mem_lines {source : String} {line : Line} (h : line ∈ lines source) :
    ∃ before after, line.place.Holds source.toList before line.chars after := by
  obtain ⟨p, ps, hpieces, hsource⟩ := pieces_split source.toList
  have hfeeds : ∀ piece ∈ p :: ps, '\n' ∉ piece := by
    rw [← hpieces]
    exact fun piece => lineFeed_not_mem_of_mem_pieces
  rw [lines, hpieces] at h
  have hline : line ∈ number (1 + List.count '\n' []) (Text.byteCount []) (p :: ps) := h
  rw [hsource]
  exact exists_holds_of_mem_number hline hfeeds (.inl rfl)

/-! ## What a report marks -/

theorem Place.widened_of_lt {place : Place} (h : place.start < place.stop) (size : Nat) :
    place.widened size = place :=
  if_neg (Nat.ne_of_lt h)

theorem Place.Holds.marked_eq {place : Place} {source : String} {before line after : List Char}
    (h : place.Holds source.toList before line after) (hne : place.start < place.stop) :
    place.marked source = line := by
  have hbytes : place.stop - place.start = Text.byteCount line := by
    rw [h.stop_eq, h.start_eq, Text.byteCount_append, Nat.add_sub_cancel_left]
  simp only [marked, widened_of_lt hne]
  rw [hbytes, h.start_eq, h.split, List.append_assoc, Text.dropBytes_append, Text.takeBytes_append]

/-- Every fault but that of a blank text stands in the first line that offends: its place is a range of
bytes between two characters, with at least one character, from the start of the line to its end
without a carriage return before the line feed, under the number of the line. A report widens nothing
and marks this line. -/
theorem decodeWith_fault_place (rename : String → String) {source : String} {fault : Fault}
    (herror : decodeWith rename source = .error (.fault fault)) (hfault : fault ≠ .empty) :
    ∃ root earlier line later before after place,
      nodeLines source = root :: (earlier ++ line :: later) ∧ Lawful earlier ∧
      offence? (standingAfter earlier) line = some fault ∧
      fault.place? = some place ∧ place.Holds source.toList before line.chars after ∧
      place.start < place.stop ∧ place.stop ≤ source.utf8ByteSize ∧
      place.widened source.utf8ByteSize = place ∧ place.marked source = line.chars := by
  obtain ⟨root, rest, hlines, hfirst⟩ := firstOffence_of_decodeWith herror hfault
  obtain ⟨earlier, line, later, rfl, hlawful, hoffends⟩ := hfirst
  have hline : line ∈ nodeLines source := by
    rw [hlines]
    exact List.mem_cons_of_mem root (List.mem_append_right earlier List.mem_cons_self)
  obtain ⟨before, after, hholds⟩ := exists_holds_of_mem_lines (List.mem_filter.mp hline).1
  have hne : line.chars ≠ [] := by
    intro hnil
    have hfilled := (chars_of_mem_nodeLines hline).2
    rw [hnil] at hfilled
    cases hfilled
  have hlt : line.place.start < line.place.stop := by
    have hpos := Text.byteCount_pos hne
    exact Nat.lt_add_of_pos_right hpos
  refine ⟨root, earlier, line, later, before, after, line.place, hlines, hlawful, hoffends,
    place?_of_offence? hoffends, hholds, hlt, ?_, Place.widened_of_lt hlt _, hholds.marked_eq hlt⟩
  rw [← Text.byteCount_toList, hholds.split, Text.byteCount_append, ← hholds.stop_eq]
  exact Nat.le_add_right _ _

/-- Blank lines and carriage returns count, and characters of more than one byte count as such. -/
theorem decode_fault_in_last_line :
    decode "Ré\r\n \n  A\r\n   ü\r" = .error (.fault (.misalignedIndent ⟨4, 12, 17⟩)) ∧
      ∃ before after, (⟨4, 12, 17⟩ : Place).Holds "Ré\r\n \n  A\r\n   ü\r".toList before
        "   ü".toList after := by
  have herror : decode "Ré\r\n \n  A\r\n   ü\r" =
      .error (.fault (.misalignedIndent ⟨4, 12, 17⟩)) := by
    rfl
  obtain ⟨_, _, line, _, before, after, place, -, -, -, hplace, hholds, -, -, -, hmarked⟩ :=
    decodeWith_fault_place id herror (by decide)
  obtain rfl := Option.some.inj hplace
  have hline : line.chars = "   ü".toList := hmarked.symm.trans (by decide)
  rw [hline] at hholds
  exact ⟨herror, before, after, hholds⟩

end TreeAccord.Dump
