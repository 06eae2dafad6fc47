/-!
# Byte counts

Places in a source are counted in bytes of its UTF-8 encoding.
-/

namespace TreeAccord.Text

/-- The number of bytes that encode the characters. -/
def byteCount (cs : List Char) : Nat := cs.foldr (fun c n => c.utf8Size + n) 0

@[simp] theorem byteCount_nil : byteCount [] = 0 := rfl

@[simp] theorem byteCount_cons (c : Char) (cs : List Char) :
    byteCount (c :: cs) = c.utf8Size + byteCount cs := rfl

theorem byteCount_append (cs ds : List Char) :
    byteCount (cs ++ ds) = byteCount cs + byteCount ds := by
  induction cs with
  | nil => simp
  | cons c cs ih => simp [ih, Nat.add_assoc]

theorem byteCount_ofList (cs : List Char) : byteCount cs = (String.ofList cs).utf8ByteSize := by
  induction cs with
  | nil => rfl
  | cons c cs ih =>
    rw [byteCount_cons, ih, String.ofList_cons, String.utf8ByteSize_append,
      String.utf8ByteSize_singleton]

theorem byteCount_toList (text : String) : byteCount text.toList = text.utf8ByteSize := by
  rw [byteCount_ofList, String.ofList_toList]

theorem byteCount_pos {cs : List Char} (h : cs ≠ []) : 0 < byteCount cs := by
  obtain ⟨c, cs, rfl⟩ := List.exists_cons_of_ne_nil h
  exact Nat.add_pos_left c.utf8Size_pos _

/-! ## Cuts -/

/-- What stands after the first `n` bytes. -/
def dropBytes (n : Nat) : List Char → List Char
  | [] => []
  | c :: cs => if n = 0 then c :: cs else dropBytes (n - c.utf8Size) cs

/-- The characters that begin within the first `n` bytes. -/
def takeBytes (n : Nat) : List Char → List Char
  | [] => []
  | c :: cs => if n = 0 then [] else c :: takeBytes (n - c.utf8Size) cs

theorem dropBytes_append (cs ds : List Char) : dropBytes (byteCount cs) (cs ++ ds) = ds := by
  induction cs with
  | nil => cases ds <;> simp [dropBytes]
  | cons c cs ih =>
    have hpos := byteCount_pos (List.cons_ne_nil c cs)
    rw [List.cons_append, dropBytes, if_neg (Nat.ne_of_gt hpos), byteCount_cons,
      Nat.add_sub_cancel_left, ih]

theorem takeBytes_append (cs ds : List Char) : takeBytes (byteCount cs) (cs ++ ds) = cs := by
  induction cs with
  | nil => cases ds <;> simp [takeBytes]
  | cons c cs ih =>
    have hpos := byteCount_pos (List.cons_ne_nil c cs)
    rw [List.cons_append, takeBytes, if_neg (Nat.ne_of_gt hpos), byteCount_cons,
      Nat.add_sub_cancel_left, ih]

end TreeAccord.Text
