/-!
# Paths

Paths are texts in which slashes separate the names of directories. Repeated slashes and single
dots change nothing.
-/

namespace TreeAccord.Cli

/-- The pieces between occurrences of `c`, at least one. -/
def splitAt (c : Char) (cs : List Char) : List (List Char) :=
  cs.foldr (fun d ps => if d = c then [] :: ps else
    match ps with
    | [] => [[d]]
    | p :: ps => (d :: p) :: ps) [[]]

/-- The parts of a path, empty ones included. -/
def parts (path : String) : List String := (splitAt '/' path.toList).map String.ofList

/-- The name that a path ends in. The root, a single dot and a step upwards have none. -/
def fileName? (path : String) : Option String :=
  match ((parts path).filter fun part => part ≠ "" ∧ part ≠ ".").getLast? with
  | some ".." => none
  | name? => name?

/-- A name cut at its last dot; a dot in front does not count. -/
def cutExtension (name : String) : String × Option String :=
  match (splitAt '.' name.toList).reverse with
  | extension :: first :: before =>
    let stem := String.ofList (['.'].intercalate (first :: before).reverse)
    if stem.isEmpty then (name, none) else (stem, some (String.ofList extension))
  | _ => (name, none)

def extension? (path : String) : Option String :=
  (fileName? path).bind fun name => (cutExtension name).2

/-- The name that a path ends in, without its extension. -/
def stem? (path : String) : Option String := (fileName? path).map fun name => (cutExtension name).1

/-- The path of a name within a directory. -/
def join (dir name : String) : String :=
  if name.toList.head? = some '/' || dir.isEmpty then name
  else if dir.toList.getLast? = some '/' then dir ++ name
  else dir ++ "/" ++ name

/-- A name with an extension appended, whatever dots it has. -/
def dotted (name extension : String) : String := name ++ "." ++ extension

end TreeAccord.Cli
