import TreeAccord.Proofs.Json.Spelling
import TreeAccord.Json.Text

/-! # Texts that are written and read again

Each character of a text is read as it was, whether it was written as it is, as an escape of one
letter or by its code. -/

namespace TreeAccord.Json

/-! ## Escapes -/

theorem fourDigits_controlCode {n : Nat} (h : n < 0x20) (rest : List Char) :
    fourDigits ('0' :: '0' :: Nat.digitChar (n / 16) :: Nat.digitChar (n % 16) :: rest) =
      .ok (n, rest) := by
  have hdigits : ∀ m : Fin 0x20,
      Text.byteCount ['0', '0', Nat.digitChar (m / 16), Nat.digitChar (m % 16)] = 4 ∧
        hexNumber? ['0', '0', Nat.digitChar (m / 16), Nat.digitChar (m % 16)] = some m.1 := by
    decide
  obtain ⟨hbytes, hnumber⟩ := hdigits ⟨n, h⟩
  have htake : ('0' :: '0' :: Nat.digitChar (n / 16) :: Nat.digitChar (n % 16) :: rest).take 4 =
      ['0', '0', Nat.digitChar (n / 16), Nat.digitChar (n % 16)] := rfl
  dsimp only at hbytes hnumber
  rw [fourDigits, htake, hbytes, if_neg (Nat.lt_irrefl 4), hnumber]

/-- The code of a control character is that of no half of a pair. -/
theorem escape_controlCode {c : Char} (h : c.toNat < 0x20) (rest : List Char) :
    escape
        ('u' :: '0' :: '0' :: Nat.digitChar (c.toNat / 16) :: Nat.digitChar (c.toNat % 16) :: rest) =
      .ok (c, rest) := by
  have htrailing : isTrailing c.toNat = false := by
    rw [isTrailing, decide_eq_false (by omega), Bool.false_and]
  have hleading : isLeading c.toNat = false := by
    rw [isLeading, decide_eq_false (by omega), Bool.false_and]
  rw [escape, numericEscape, fourDigits_controlCode h]
  simp only [bind, Except.bind]
  rw [htrailing, hleading, Char.ofNat_toNat]
  rfl

/-! ## Written texts -/

theorem textBody_of_escape {c : Char} {cs rest : List Char} (h : escape cs = .ok (c, rest))
    (fuel : Nat) :
    textBody (fuel + 1) ('\\' :: cs) =
      (textBody fuel rest).map fun (s, rest) => (c :: s, rest) := by
  rw [textBody, if_neg (by decide), if_pos rfl, h]
  change (do let (s, rest) ← textBody fuel rest; return (c :: s, rest)) = _
  cases textBody fuel rest <;> rfl

theorem textBody_of_plain {c : Char} (quotation : c ≠ '"') (backslash : c ≠ '\\')
    (control : ¬c.toNat < 0x20) (fuel : Nat) (rest : List Char) :
    textBody (fuel + 1) (c :: rest) = (textBody fuel rest).map fun (s, rest) => (c :: s, rest) := by
  rw [textBody, if_neg quotation, if_neg backslash, if_neg control]
  cases textBody fuel rest <;> rfl

/-- A round of the reader takes in what was written for one character. -/
theorem textBody_escapedChar (c : Char) (fuel : Nat) (rest : List Char) :
    textBody (fuel + 1) (escapedChar c ++ rest) =
      (textBody fuel rest).map fun (s, rest) => (c :: s, rest) := by
  unfold escapedChar
  split
  -- first the characters with an escape of one letter
  iterate 7 exact textBody_of_escape rfl fuel
  rename_i quotation backslash _ _ _ _ _
  split
  · rename_i hcontrol
    exact textBody_of_escape (escape_controlCode hcontrol rest) fuel
  · rename_i hplain
    exact textBody_of_plain quotation backslash hplain fuel rest

theorem escapedChar_ne_nil (c : Char) : escapedChar c ≠ [] := by
  unfold escapedChar
  split
  iterate 7 exact List.cons_ne_nil _ _
  split <;> exact List.cons_ne_nil _ _

theorem textBody_written {s : List Char} {fuel : Nat} (h : s.length < fuel) (rest : List Char) :
    textBody fuel (s.flatMap escapedChar ++ '"' :: rest) = .ok (s, rest) := by
  induction s generalizing fuel with
  | nil =>
      obtain ⟨fuel, rfl⟩ := Nat.exists_eq_add_one.mpr (Nat.zero_lt_of_lt h)
      rfl
  | cons c s ih =>
      obtain ⟨fuel, rfl⟩ := Nat.exists_eq_add_one.mpr (Nat.zero_lt_of_lt h)
      rw [List.flatMap_cons, List.append_assoc, textBody_escapedChar, ih (Nat.lt_of_succ_lt_succ h)]
      rfl

theorem length_le_flatMap_escapedChar (s : List Char) :
    s.length ≤ (s.flatMap escapedChar).length := by
  induction s with
  | nil => exact Nat.le_refl 0
  | cons c s ih =>
      have hpos := List.length_pos_iff.mpr (escapedChar_ne_nil c)
      rw [List.flatMap_cons, List.length_append, List.length_cons]
      omega

/-- A text is read from behind its opening quote. -/
theorem readQuoted_written (s : String) (rest : List Char) :
    readQuoted (s.toList.flatMap escapedChar ++ '"' :: rest) = .ok (s, rest) := by
  have hlength : s.toList.length < (s.toList.flatMap escapedChar ++ '"' :: rest).length + 1 := by
    have hle := length_le_flatMap_escapedChar s.toList
    rw [List.length_append]
    omega
  rw [readQuoted, textBody_written hlength]
  simp only [bind, Except.bind, String.ofList_toList]
  rfl

example : readQuoted "\\u0001 \\\" \\n\"".toList = .ok ("\x01 \" \n", []) := by cbv

theorem toList_quote (s : String) :
    (quote s).toList = '"' :: (s.toList.flatMap escapedChar ++ ['"']) := by
  rw [quote, String.toList_ofList]

end TreeAccord.Json
