import TreeAccord.Cli.Path

/-!
# Files

What the commands ask of a file system. It may be the real one, or a fixed map from paths to
contents.
-/

namespace TreeAccord.Cli

/-- Why a file cannot be read or a directory not be listed. -/
inductive Reason where
  | notFound
  | isDirectory
  | notDirectory
  | nameTooLong
  | notUtf8
  | other (text : String)
deriving DecidableEq, Repr

def Reason.message : Reason → String
  | notFound => "No such file or directory (os error 2)"
  | isDirectory => "Is a directory (os error 21)"
  | notDirectory => "Not a directory (os error 20)"
  | nameTooLong => "File name too long (os error 36)"
  | notUtf8 => "stream did not contain valid UTF-8"
  | other text => text

/-- The operations of a file system. -/
structure Files (m : Type → Type) where
  /-- The text of a file. -/
  read : String → m (Except Reason String)
  /-- The names in a directory, in any order. -/
  list : String → m (Except Reason (List String))
  isFile : String → m Bool

/-! ## A fixed map of files -/

/-- What stands under a path. -/
inductive Content where
  | directory
  /-- A file, with its text if it holds one. -/
  | file (text? : Option String)
  /-- A device that holds no text; it can be read, but is no file. -/
  | device
deriving DecidableEq, Repr

/-- Contents under their places, each given by its names from one directory down. -/
abbrev FileMap := List (List String × Content)

namespace FileMap

/-- What a path leads to. -/
inductive Target where
  | directory (names : List String)
  | file (text? : Option String)
  | device
deriving DecidableEq, Repr

/-- The names right below a place, each once. -/
def namesIn (m : FileMap) (place : List String) : List String :=
  (m.filterMap fun entry =>
    if place.isPrefixOf entry.1 then entry.1[place.length]? else none).eraseDups

/-- What stands at a place. The directories above an entry are there without being listed. -/
def at? (m : FileMap) (place : List String) : Option Target :=
  match m.find? fun entry => entry.1 == place with
  | some (_, .file text?) => some (.file text?)
  | some (_, .device) => some .device
  | some (_, .directory) => some (.directory (m.namesIn place))
  | none =>
    if m.any fun entry => place.isPrefixOf entry.1 then some (.directory (m.namesIn place)) else none

/-- The most bytes of one name. -/
def nameLimit : Nat := 255

/-- The most bytes of a path. -/
def pathLimit : Nat := 4095

/-- Follows the parts of a path from a place. Upwards of the root is the root. -/
def follow (m : FileMap) : (place : List String) → List String → Except Reason Target
  | place, [] =>
    match m.at? place with
    | some target => .ok target
    | none => .error .notFound
  | place, part :: rest =>
    match m.at? place with
    | none => .error .notFound
    | some (.directory _) =>
      if part = "" ∨ part = "." then follow m place rest
      else if part = ".." then follow m place.dropLast rest
      else if nameLimit < part.utf8ByteSize then .error .nameTooLong
      else follow m (place ++ [part]) rest
    | some _ => .error .notDirectory

/-- What every system has below its root. -/
def standing : FileMap := [(["dev", "null"], .device), (["tmp"], .directory)]

/-- The place of the working directory. Paths do not know its name, so it has one that no part of a
path spells. -/
def home : List String := ["tmp", "/"]

/-- The tree of files from the root down, in which the map is the working directory. -/
def rooted (m : FileMap) : FileMap :=
  standing ++ (home, .directory) :: m.map fun entry => (home ++ entry.1, entry.2)

/-- What a path leads to from the working directory, which the map describes. -/
def find (m : FileMap) (path : String) : Except Reason Target :=
  if path.isEmpty then .error .notFound
  else if pathLimit < path.utf8ByteSize then .error .nameTooLong
  else m.rooted.follow (if path.toList.head? = some '/' then [] else home) (parts path)

/-- The place that a path of the working directory names. -/
def place (path : String) : List String :=
  (parts path).foldl (fun place part =>
    if part = "" ∨ part = "." then place
    else if part = ".." then place.dropLast
    else place ++ [part]) []

def files (m : FileMap) : Files Id where
  read path :=
    match m.find path with
    | .ok (.file (some text)) => .ok text
    | .ok (.file none) => .error .notUtf8
    | .ok .device => .ok ""
    | .ok (.directory _) => .error .isDirectory
    | .error reason => .error reason
  list path :=
    match m.find path with
    | .ok (.directory names) => .ok names
    | .ok _ => .error .notDirectory
    | .error reason => .error reason
  isFile path :=
    match m.find path with
    | .ok (.file _) => true
    | _ => false

end FileMap

end TreeAccord.Cli
