/-!
# Groups of values under a key

A list of keys in the order of their first appearance, each with the values gathered under it.
-/

namespace TreeAccord

/-- Keys with their values; no key stands twice when built by `Groups.alter`. -/
abbrev Groups (α : Type) := List (String × List α)

namespace Groups

variable {α : Type}

def find? (g : Groups α) (key : String) : Option (List α) :=
  match g with
  | [] => none
  | (k, values) :: rest => if k = key then some values else find? rest key

/-- Changes the values under a key, which are none at first. -/
def alter (g : Groups α) (key : String) (f : List α → List α) : Groups α :=
  match g with
  | [] => [(key, f [])]
  | (k, values) :: rest =>
    if k = key then (k, f values) :: rest else (k, values) :: alter rest key f

@[simp] theorem find?_alter_self (g : Groups α) (key : String) (f : List α → List α) :
    (g.alter key f).find? key = some (f ((g.find? key).getD [])) := by
  induction g with
  | nil => simp [alter, find?]
  | cons entry rest ih =>
    unfold alter find?
    by_cases h : entry.1 = key
    · simp [h]
    · simp [h, ih]

theorem find?_alter_of_ne (g : Groups α) {key other : String} (h : key ≠ other)
    (f : List α → List α) : (g.alter key f).find? other = g.find? other := by
  induction g with
  | nil => simp [alter, find?, h]
  | cons entry rest ih =>
    unfold alter find?
    by_cases hk : entry.1 = key
    · simp [hk, h]
    · simp [hk, ih]

end Groups

end TreeAccord
