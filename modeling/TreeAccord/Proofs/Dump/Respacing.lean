import TreeAccord.Dump.Decode
import TreeAccord.Proofs.Dump.Lines

/-! # Line ends and blank lines

The same lines can be written with one line end or the other, and with blank lines in between. The
reader takes from a line its characters and, for a fault, its place; so what it reads stays the same,
and a fault stands where its line has gone. -/

namespace TreeAccord.Dump

/-! ## Written lines -/

inductive LineEnd where
  | lineFeed
  | returnLineFeed
deriving DecidableEq, Repr

namespace LineEnd

/-- What a line end has before its line feed. -/
def returned : LineEnd → List Char
  | lineFeed => []
  | returnLineFeed => ['\r']

def chars (e : LineEnd) : List Char := e.returned ++ ['\n']

end LineEnd

/-- A line with the line end that parts it from the next one. It is one of the lines that a text is to
hold, or a blank one that is added between, before or after them. -/
structure Written where
  chars : List Char
  lineEnd : LineEnd
  added : Bool
  unbroken : '\n' ∉ chars
  blank : added = true → chars.all Text.isBlank = true
  returnless : added = false → '\r' ∉ chars

/-- The text of written lines. There is no line end behind the last one. -/
def joined : List Written → List Char
  | [] => []
  | [w] => w.chars
  | w :: v :: ws => w.chars ++ w.lineEnd.chars ++ joined (v :: ws)

/-- The lines that a text is to hold. -/
def kept (ws : List Written) : List (List Char) :=
  (ws.filter fun w => !w.added).map Written.chars

/-- The lines that a text is to hold, each at its place in the text, if the first written line has the
number `n` and begins at the byte `start`. -/
def keptFrom (n start : Nat) : List Written → List Line
  | [] => []
  | w :: ws =>
    let stop := start + Text.byteCount w.chars
    let later := keptFrom (n + 1) (stop + Text.byteCount w.lineEnd.chars) ws
    if w.added then later else ⟨n, start, w.chars⟩ :: later

/-- The places of the lines that a text is to hold. -/
def places (ws : List Written) : List Place := (keptFrom 1 0 ws).map Line.place

theorem keptFrom_cons (n start : Nat) (w : Written) (ws : List Written) :
    keptFrom n start (w :: ws) =
      (if w.added then [] else [⟨n, start, w.chars⟩]) ++
        keptFrom (n + 1) (start + Text.byteCount w.chars + Text.byteCount w.lineEnd.chars) ws := by
  rw [keptFrom]
  split <;> rfl

theorem map_chars_keptFrom (n start : Nat) (ws : List Written) :
    (keptFrom n start ws).map Line.chars = kept ws := by
  induction ws generalizing n start with
  | nil => rfl
  | cons w ws ih =>
      cases hadded : w.added with
      | true => simpa [keptFrom, kept, hadded] using ih _ _
      | false => simpa [keptFrom, kept, hadded] using ih _ _

/-! ## Cutting what was joined -/

theorem pieces_unbroken {cs : List Char} (h : '\n' ∉ cs) : pieces cs = [cs] := by
  induction cs with
  | nil => rfl
  | cons c cs ih =>
      have hc : c ≠ '\n' := Ne.symm (List.ne_of_not_mem_cons h)
      obtain ⟨p, ps, htail, hpieces⟩ := pieces_cons hc cs
      rw [ih (List.not_mem_of_not_mem_cons h), List.cons.injEq] at htail
      rw [hpieces, ← htail.1, ← htail.2]

theorem dropReturn_concat (cs : List Char) : dropReturn (cs ++ ['\r']) = cs := by
  simp [dropReturn]

theorem dropReturn_of_not_mem {cs : List Char} (h : '\r' ∉ cs) : dropReturn cs = cs :=
  if_neg fun hlast => h (List.mem_of_getLast? hlast)

namespace Written

variable (w : Written)

/-- The characters between two line feeds. -/
def piece : List Char := w.chars ++ w.lineEnd.returned

theorem lineFeed_not_mem_piece : '\n' ∉ w.piece := by
  have := w.unbroken
  rw [piece]
  cases w.lineEnd <;> simpa [LineEnd.returned] using this

/-- A line that a text is to hold is cut out as it was. -/
theorem dropReturn_piece (h : w.added = false) : dropReturn w.piece = w.chars := by
  rw [piece]
  cases w.lineEnd with
  | lineFeed => rw [LineEnd.returned, List.append_nil, dropReturn_of_not_mem (w.returnless h)]
  | returnLineFeed => rw [LineEnd.returned, dropReturn_concat]

/-- What is cut out for an added line is blank, whatever becomes of its carriage returns. -/
theorem all_isBlank_dropReturn (h : w.added = true) {cs : List Char} (hcs : cs <+: w.piece) :
    cs.all Text.isBlank = true := by
  rw [List.all_eq_true]
  intro c hc
  rcases List.mem_append.mp (hcs.subset hc) with hc | hc
  · exact List.all_eq_true.mp (w.blank h) c hc
  · revert hc
    cases w.lineEnd with
    | lineFeed => simp [LineEnd.returned]
    | returnLineFeed =>
        intro hc
        rw [List.mem_singleton.mp hc]
        decide

/-- Only the lines that a text is to hold are left of those that are not blank. -/
theorem filter_line {cs : List Char} (hcs : cs <+: w.piece) (hkept : w.added = false → cs = w.chars)
    (n start : Nat) :
    ([Line.mk n start cs].filter fun line => !line.isBlank) =
      (if w.added then [] else [⟨n, start, w.chars⟩]).filter fun line => !line.isBlank := by
  cases hadded : w.added with
  | true =>
      have hblank := w.all_isBlank_dropReturn hadded hcs
      simp [Line.isBlank, hblank]
  | false => rw [hkept hadded, if_neg Bool.false_ne_true]

end Written

theorem joined_cons_cons (w v : Written) (ws : List Written) :
    joined (w :: v :: ws) = w.piece ++ '\n' :: joined (v :: ws) := by
  simp [joined, Written.piece, LineEnd.chars]

/-- Cutting a text gives the lines that it is to hold, at their places, and blank ones. -/
theorem filter_number_joined (n start : Nat) (ws : List Written) :
    ((number n start (pieces (joined ws))).filter fun line => !line.isBlank) =
      (keptFrom n start ws).filter fun line => !line.isBlank := by
  induction ws generalizing n start with
  | nil => rfl
  | cons w ws ih =>
      rw [keptFrom_cons, List.filter_append]
      cases ws with
      | nil =>
          rw [joined, pieces_unbroken w.unbroken, number, number, keptFrom, List.filter_nil,
            List.append_nil]
          refine w.filter_line ((dropReturn_isPrefix _).trans (List.prefix_append _ _)) ?_ n start
          exact fun hadded => dropReturn_of_not_mem (w.returnless hadded)
      | cons v ws =>
          have hbytes : start + Text.byteCount w.piece + 1 =
              start + Text.byteCount w.chars + Text.byteCount w.lineEnd.chars := by
            rw [Written.piece, LineEnd.chars, Text.byteCount_append, Text.byteCount_append]
            simp only [Nat.add_assoc]
            rfl
          rw [joined_cons_cons, pieces_append_lineFeed w.lineFeed_not_mem_piece, number, hbytes,
            ← List.singleton_append, List.filter_append, ih]
          rw [w.filter_line (dropReturn_isPrefix _) w.dropReturn_piece]

theorem nodeLines_joined (ws : List Written) :
    nodeLines (String.ofList (joined ws)) =
      (keptFrom 1 0 ws).filter fun line => !line.isBlank := by
  rw [nodeLines, lines, String.toList_ofList]
  exact filter_number_joined 1 0 ws

/-! ## Results that are alike -/

/-- The fault at another place. -/
def Fault.movedTo (place : Place) : Fault → Fault
  | .empty => .empty
  | .indentJump _ previous depth => .indentJump place previous depth
  | .orphanLine _ => .orphanLine place
  | .misalignedIndent _ => .misalignedIndent place
  | .childOfToken _ rule => .childOfToken place rule

/-- The results are the same, except that a fault may stand at another place: one to which its own
place has gone. -/
inductive Alike {α : Type} (gone : List (Place × Place)) :
    Except Failure α → Except Failure α → Prop where
  | ok (a : α) : Alike gone (.ok a) (.ok a)
  | refused (refusal : NodeTable.Refusal) :
      Alike gone (.error (.refused refusal)) (.error (.refused refusal))
  | empty : Alike gone (.error (.fault .empty)) (.error (.fault .empty))
  | fault {fault : Fault} {place place' : Place} (stands : fault.place? = some place)
      (moved : (place, place') ∈ gone) :
      Alike gone (.error (.fault fault)) (.error (.fault (fault.movedTo place')))

namespace Alike

variable {α β : Type} {gone : List (Place × Place)} {x y : Except Failure α}

theorem mono {gone' : List (Place × Place)} (h : Alike gone x y) (hgone : gone ⊆ gone') :
    Alike gone' x y := by
  cases h with
  | ok a => exact .ok a
  | refused refusal => exact .refused refusal
  | empty => exact .empty
  | fault stands moved => exact .fault stands (hgone moved)

theorem bind {f g : α → Except Failure β} (h : Alike gone x y)
    (hnext : ∀ a, Alike gone (f a) (g a)) : Alike gone (x >>= f) (y >>= g) := by
  cases h with
  | ok a => exact hnext a
  | refused refusal => exact .refused refusal
  | empty => exact .empty
  | fault stands moved => exact .fault stands moved

theorem map (f : α → β) (h : Alike gone x y) : Alike gone (x.map f) (y.map f) := by
  cases h with
  | ok a => exact .ok (f a)
  | refused refusal => exact .refused refusal
  | empty => exact .empty
  | fault stands moved => exact .fault stands moved

theorem ofRefusal (x : Except NodeTable.Refusal α) :
    Alike gone (x.mapError .refused) (x.mapError .refused) := by
  cases x with
  | ok a => exact .ok a
  | error refusal => exact .refused refusal

end Alike

variable {rename : String → String}

theorem alike_checkDepth {line line' : Line} (hchars : line.chars = line'.chars) (previous : Nat) :
    Alike [(line.place, line'.place)] ((checkDepth previous line).mapError .fault)
      ((checkDepth previous line').mapError .fault) := by
  have hspaces : line.spaces = line'.spaces := by rw [Line.spaces, Line.spaces, hchars]
  unfold checkDepth
  rw [hspaces]
  dsimp only
  split
  · exact .fault rfl List.mem_cons_self
  split
  · exact .fault rfl List.mem_cons_self
  split
  · exact .fault rfl List.mem_cons_self
  · exact .ok _

theorem Growth.alike_add {line line' : Line} (hchars : line.chars = line'.chars) (g : Growth) :
    Alike [(line.place, line'.place)] (g.add rename line) (g.add rename line') := by
  unfold Growth.add
  rw [hchars]
  refine (alike_checkDepth hchars g.depth).bind fun depth => ?_
  refine (Alike.ofRefusal _).bind fun parent => ?_
  dsimp only
  split
  · exact .fault rfl List.mem_cons_self
  · exact (Alike.ofRefusal _).bind fun table => .ok _

/-- The places of lines and of those that have come from them. -/
def gone (ps : List (Line × Line)) : List (Place × Place) :=
  ps.map fun p => (p.1.place, p.2.place)

theorem alike_foldlM {ps : List (Line × Line)} (hchars : ∀ p ∈ ps, p.1.chars = p.2.chars)
    (g : Growth) :
    Alike (gone ps) ((ps.map Prod.fst).foldlM (Growth.add rename) g)
      ((ps.map Prod.snd).foldlM (Growth.add rename) g) := by
  induction ps generalizing g with
  | nil => exact .ok g
  | cons p ps ih =>
      obtain ⟨hp, hps⟩ := List.forall_mem_cons.mp hchars
      rw [List.map_cons, List.map_cons, List.foldlM_cons, List.foldlM_cons]
      refine ((Growth.alike_add hp g).mono ?_).bind fun next => (ih hps next).mono ?_
      · exact List.cons_subset_cons _ (List.nil_subset _)
      · exact List.subset_cons_self _ _

theorem alike_decodeWith (rename : String → String) {source source' : String}
    {ps : List (Line × Line)} (hchars : ∀ p ∈ ps, p.1.chars = p.2.chars)
    (hlines : nodeLines source = ps.map Prod.fst)
    (hlines' : nodeLines source' = ps.map Prod.snd) :
    Alike (gone ps) (decodeWith rename source) (decodeWith rename source') := by
  rw [decodeWith, decodeWith, hlines, hlines']
  cases ps with
  | nil => exact .empty
  | cons root rest =>
      obtain ⟨hroot, hrest⟩ := List.forall_mem_cons.mp hchars
      have hstart : Growth.start rename root.1 = Growth.start rename root.2 := by
        rw [Growth.start, Growth.start, hroot]
      refine Alike.map Growth.table ?_
      rw [← hstart]
      exact (alike_foldlM hrest _).mono (List.subset_cons_self _ _)

/-! ## The same lines written twice -/

/-- Lines with the same characters, in pairs; those that are not blank are so on both sides. -/
theorem filter_zip_lines {ls ls' : List Line}
    (h : ls.map Line.chars = ls'.map Line.chars) :
    (∀ p ∈ ls.zip ls', p.1.chars = p.2.chars) ∧
      (((ls.zip ls').filter fun p => !p.1.isBlank).map Prod.fst =
        ls.filter fun line => !line.isBlank) ∧
      ((ls.zip ls').filter fun p => !p.1.isBlank).map Prod.snd =
        ls'.filter fun line => !line.isBlank := by
  induction ls generalizing ls' with
  | nil =>
      obtain rfl := List.map_eq_nil_iff.mp h.symm
      simp
  | cons l ls ih =>
      cases ls' with
      | nil => cases h
      | cons l' ls' =>
          obtain ⟨hchars, hrest⟩ := List.cons.inj h
          obtain ⟨hpairs, hfst, hsnd⟩ := ih hrest
          have hblank : l.isBlank = l'.isBlank := congrArg (List.all · Text.isBlank) hchars
          rw [List.zip_cons_cons]
          refine ⟨List.forall_mem_cons.mpr ⟨hchars, hpairs⟩, ?_, ?_⟩
          · cases hl : l.isBlank <;> simp [hl, hfst]
          · cases hl : l.isBlank <;> simp [hl, ← hblank, hsnd]

/-- However the same lines are written, either reader gives the same table or the same failure; only
the place of a fault is that of the same line where it stands now. -/
theorem decodeWith_respaced (rename : String → String) {ws ws' : List Written}
    (hkept : kept ws = kept ws') :
    Alike ((places ws).zip (places ws')) (decodeWith rename (String.ofList (joined ws)))
      (decodeWith rename (String.ofList (joined ws'))) := by
  rw [← map_chars_keptFrom 1 0 ws, ← map_chars_keptFrom 1 0 ws'] at hkept
  obtain ⟨hpairs, hfst, hsnd⟩ := filter_zip_lines hkept
  rw [← nodeLines_joined] at hfst hsnd
  have halike := alike_decodeWith rename (fun p hp => hpairs p (List.mem_filter.mp hp).1)
    hfst.symm hsnd.symm
  refine halike.mono ?_
  have hzip : (places ws).zip (places ws') = gone ((keptFrom 1 0 ws).zip (keptFrom 1 0 ws')) := by
    rw [places, places, List.zip_map]
    rfl
  rw [hzip]
  exact List.map_subset _ List.filter_sublist.subset

/-- Three lines, the last one too deep. -/
def jumpingLines : List Written :=
  [⟨"Root".toList, .lineFeed, false, by decide, by decide, by decide⟩,
    ⟨"  A".toList, .lineFeed, false, by decide, by decide, by decide⟩,
    ⟨"      B".toList, .lineFeed, false, by decide, by decide, by decide⟩]

/-- The same lines with blank ones before, between and after them, and with both line ends. -/
def jumpingLinesSpaced : List Written :=
  [⟨"\t".toList, .returnLineFeed, true, by decide, by decide, by decide⟩,
    ⟨"Root".toList, .returnLineFeed, false, by decide, by decide, by decide⟩,
    ⟨[], .lineFeed, true, by decide, by decide, by decide⟩,
    ⟨"  A".toList, .lineFeed, false, by decide, by decide, by decide⟩,
    ⟨"      B".toList, .returnLineFeed, false, by decide, by decide, by decide⟩,
    ⟨"\u2003".toList, .lineFeed, true, by decide, by decide, by decide⟩]

/-- The line at fault has gone from the third line to the fifth. -/
theorem decode_jumpingLines :
    kept jumpingLines = kept jumpingLinesSpaced ∧
      Alike ((places jumpingLines).zip (places jumpingLinesSpaced))
        (decode (String.ofList (joined jumpingLines)))
        (decode (String.ofList (joined jumpingLinesSpaced))) ∧
      decode (String.ofList (joined jumpingLines)) =
        .error (.fault (.indentJump ⟨3, 9, 16⟩ 1 3)) ∧
      decode (String.ofList (joined jumpingLinesSpaced)) =
        .error (.fault (.indentJump ⟨5, 14, 21⟩ 1 3)) :=
  ⟨by decide, decodeWith_respaced id (by decide), by rfl, by rfl⟩

end TreeAccord.Dump
