import TreeAccord.Dump.Line
import TreeAccord.Text.Concat

/-! # Lines that are written and read again

A line feed after each line cuts a text back into these lines. -/

namespace TreeAccord.Dump

/-! ## Pieces -/

theorem pieces_append_lineFeed {line : List Char} (h : '\n' ∉ line) (rest : List Char) :
    pieces (line ++ '\n' :: rest) = line :: pieces rest := by
  induction line with
  | nil => exact pieces_lineFeed rest
  | cons c cs ih =>
      have hc : c ≠ '\n' := Ne.symm (List.ne_of_not_mem_cons h)
      have hcs : '\n' ∉ cs := List.not_mem_of_not_mem_cons h
      obtain ⟨p, ps, htail, hpieces⟩ := pieces_cons hc (cs ++ '\n' :: rest)
      rw [ih hcs, List.cons.injEq] at htail
      rw [List.cons_append, hpieces, ← htail.1, ← htail.2]

theorem lineFeed_not_mem_of_mem_pieces {cs piece : List Char} (h : piece ∈ pieces cs) :
    '\n' ∉ piece := by
  induction cs generalizing piece with
  | nil =>
      obtain rfl := List.mem_singleton.mp h
      exact List.not_mem_nil
  | cons c cs ih =>
      by_cases hc : c = '\n'
      · rw [hc, pieces_lineFeed] at h
        rcases List.mem_cons.mp h with rfl | h
        · exact List.not_mem_nil
        · exact ih h
      · obtain ⟨p, ps, htail, hpieces⟩ := pieces_cons hc cs
        rw [hpieces] at h
        rw [htail] at ih
        rcases List.mem_cons.mp h with rfl | h
        · exact List.not_mem_cons_of_ne_of_not_mem (Ne.symm hc) (ih List.mem_cons_self)
        · exact ih (List.mem_cons_of_mem p h)

theorem pieces_written {written : List (List Char)} (h : ∀ line ∈ written, '\n' ∉ line) :
    pieces (written.flatMap (· ++ ['\n'])) = written ++ [[]] := by
  induction written with
  | nil => rfl
  | cons line rest ih =>
      obtain ⟨hline, hrest⟩ := List.forall_mem_cons.mp h
      rw [List.flatMap_cons, List.append_assoc, List.singleton_append, pieces_append_lineFeed hline,
        ih hrest, List.cons_append]

theorem toList_concat_lineFeeds (written : List String) :
    (Text.concat (written.map fun line => line ++ "\n")).toList =
      (written.map String.toList).flatMap (· ++ ['\n']) := by
  induction written with
  | nil => rfl
  | cons line rest ih =>
      rw [List.map_cons, Text.concat_cons, String.toList_append, String.toList_append, ih,
        List.map_cons, List.flatMap_cons]
      rfl

/-- Texts are told apart by their lines. -/
theorem concat_lineFeeds_inj {written written' : List String}
    (h : ∀ line ∈ written, '\n' ∉ line.toList) (h' : ∀ line ∈ written', '\n' ∉ line.toList) :
    Text.concat (written.map fun line => line ++ "\n") =
        Text.concat (written'.map fun line => line ++ "\n") ↔ written = written' := by
  constructor
  · intro heq
    have hpieces := congrArg (fun text => pieces text.toList) heq
    simp only [toList_concat_lineFeeds] at hpieces
    rw [pieces_written (by simpa using h), pieces_written (by simpa using h')] at hpieces
    exact (List.map_inj_right fun _ _ => String.toList_inj.mp).mp (List.append_cancel_right hpieces)
  · rintro rfl
    rfl

/-! ## Lines -/

theorem map_chars_number (n start : Nat) (ps : List (List Char)) :
    (number n start ps).map Line.chars = ps.map dropReturn := by
  induction ps generalizing n start with
  | nil => rfl
  | cons p ps ih => rw [number, List.map_cons, List.map_cons, ih]

theorem map_chars_nodeLines (source : String) :
    (nodeLines source).map Line.chars =
      ((pieces source.toList).map dropReturn).filter fun cs => !cs.all Text.isBlank := by
  rw [← map_chars_number 1 0, List.filter_map]
  rfl

theorem dropReturn_isPrefix (piece : List Char) : dropReturn piece <+: piece := by
  unfold dropReturn
  split
  · exact List.dropLast_prefix piece
  · exact List.prefix_rfl

theorem head?_dropReturn {cs : List Char} (h : cs.head? ≠ some ' ') :
    (dropReturn cs).head? ≠ some ' ' := by
  obtain ⟨tail, htail⟩ := dropReturn_isPrefix cs
  cases hdrop : dropReturn cs with
  | nil => simp
  | cons c front =>
      rw [hdrop] at htail
      rw [← htail] at h
      exact h

/-- A line that holds a node holds no line feed, and not only blanks. -/
theorem chars_of_mem_nodeLines {source : String} {line : Line} (h : line ∈ nodeLines source) :
    '\n' ∉ line.chars ∧ line.chars.all Text.isBlank = false := by
  have hchars := List.mem_map_of_mem (f := Line.chars) h
  rw [map_chars_nodeLines, List.mem_filter, List.mem_map] at hchars
  obtain ⟨⟨piece, hpiece, hdrop⟩, hfilled⟩ := hchars
  refine ⟨?_, by simpa using hfilled⟩
  rw [← hdrop]
  exact fun hfeed => lineFeed_not_mem_of_mem_pieces hpiece ((dropReturn_isPrefix piece).subset hfeed)

/-- A line that ends in a character that is not blank. -/
def EndsSolid (cs : List Char) : Prop := ∃ c ∈ cs.getLast?, Text.isBlank c = false

theorem endsSolid_concat {c : Char} (h : Text.isBlank c = false) (cs : List Char) :
    EndsSolid (cs ++ [c]) := ⟨c, by simp, h⟩

theorem EndsSolid.append_left {cs : List Char} (h : EndsSolid cs) (front : List Char) :
    EndsSolid (front ++ cs) := by
  obtain ⟨c, hlast, hsolid⟩ := h
  refine ⟨c, ?_, hsolid⟩
  rw [List.getLast?_append, Option.mem_def.mp hlast]
  rfl

theorem EndsSolid.dropReturn_eq {cs : List Char} (h : EndsSolid cs) : dropReturn cs = cs := by
  obtain ⟨c, hlast, hsolid⟩ := h
  apply if_neg
  intro hreturn
  obtain rfl := Option.some.inj (hlast.symm.trans hreturn)
  exact absurd hsolid (by decide)

theorem EndsSolid.not_blank {cs : List Char} (h : EndsSolid cs) : cs.all Text.isBlank = false := by
  obtain ⟨c, hlast, hsolid⟩ := h
  exact List.all_eq_false.mpr ⟨c, List.mem_of_getLast? hlast, by simp [hsolid]⟩

/-- What is left when blanks are cut from the end does not end in a blank. -/
theorem endsSolid_trimEnd {cs : List Char} (hne : Text.trimEnd cs ≠ []) :
    EndsSolid (Text.trimEnd cs) := by
  unfold Text.trimEnd at hne ⊢
  have hhead := List.head?_dropWhile_not Text.isBlank cs.reverse
  cases hdrop : (cs.reverse.dropWhile Text.isBlank).head? with
  | none => exact absurd (List.reverse_eq_nil_iff.mpr (List.head?_eq_none_iff.mp hdrop)) hne
  | some c =>
      rw [hdrop] at hhead
      exact ⟨c, by rw [List.getLast?_reverse, hdrop]; rfl, hhead⟩

/-- Of written lines without line feeds of their own, those that are not blank hold a node. -/
theorem map_chars_nodeLines_written {written : List String}
    (hfeeds : ∀ line ∈ written, '\n' ∉ line.toList) :
    (nodeLines (Text.concat (written.map fun line => line ++ "\n"))).map Line.chars =
      (written.map fun line => dropReturn line.toList).filter fun cs => !cs.all Text.isBlank := by
  rw [map_chars_nodeLines, toList_concat_lineFeeds, pieces_written (by simpa using hfeeds),
    List.map_append, List.filter_append, List.map_map]
  exact List.append_nil _

end TreeAccord.Dump
