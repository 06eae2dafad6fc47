/-!
# Joining texts
-/

namespace TreeAccord.Text

/-- All texts, one after the other. -/
def concat (texts : List String) : String := texts.foldl (· ++ ·) ""

theorem foldl_append_eq (start : String) (texts : List String) :
    texts.foldl (· ++ ·) start = start ++ concat texts := by
  induction texts generalizing start with
  | nil => simp [concat]
  | cons t ts ih =>
    rw [concat, List.foldl_cons, List.foldl_cons, ih, ih ("" ++ t)]
    simp [String.append_assoc]

@[simp] theorem concat_nil : concat [] = "" := rfl

@[simp] theorem concat_cons (t : String) (ts : List String) :
    concat (t :: ts) = t ++ concat ts := by
  rw [concat, List.foldl_cons, foldl_append_eq]
  simp

@[simp] theorem concat_append (ts us : List String) :
    concat (ts ++ us) = concat ts ++ concat us := by
  induction ts with
  | nil => simp
  | cons t ts ih => simp [ih, String.append_assoc]

end TreeAccord.Text
