import TreeAccord.Dump.Entry
import TreeAccord.Palette
import TreeAccord.Text.Concat

/-!
# Printing a dump

Each node is one line, indented two spaces for each level below the root. White space is printed
as it is, an error element without its message, and any other leaf with its kind and its text, in
which line breaks and tabs are written as escapes.
-/

namespace TreeAccord.Dump

def escapeChar (c : Char) : List Char :=
  match c with
  | '\n' => ['\\', 'n']
  | '\r' => ['\\', 'r']
  | '\t' => ['\\', 't']
  | c => [c]

/-- A token text on one line. Backslashes stay as they are. -/
def escape (text : String) : String := String.ofList (text.toList.flatMap escapeChar)

/-- The line of a node below the root, without indentation and line end. -/
def entry (p : Palette) (l : Label) : String :=
  let bare := p.blue ++ l.rule ++ p.reset
  match l.kind? with
  | none => bare
  | some kind =>
    if kind = whiteSpaceRule then p.dim ++ l.rule ++ "(" ++ l.text ++ ")" ++ p.reset
    else if kind = errorRule then p.red ++ l.rule ++ p.reset
    else if l.terminal then
      l.rule ++ "(" ++ p.dim ++ kind ++ p.reset ++ ")('" ++ p.green ++ escape l.text ++ p.reset
        ++ "')"
    else bare

/-- The spaces before a node of the given depth. -/
def indentation (depth : Nat) : String := String.ofList (List.replicate (2 * depth) ' ')

mutual
/-- The lines of a node at the given depth and of all nodes below it, without their ends. -/
def nodeText (p : Palette) (depth : Nat) : Tree → List String
  | .node l cs => (indentation depth ++ entry p l) :: forestText p (depth + 1) cs

def forestText (p : Palette) (depth : Nat) : List Tree → List String
  | [] => []
  | t :: ts => nodeText p depth t ++ forestText p depth ts
end

/-- The lines of a dump: the root's rule, and then all nodes below it. -/
def treeText (p : Palette) (t : Tree) : List String :=
  (p.blue ++ t.rule ++ p.reset) :: forestText p 1 t.children

/-- The dump of a tree. -/
def print (p : Palette) (t : Tree) : String :=
  Text.concat ((treeText p t).map fun line => line ++ "\n")

theorem lineFeed_not_mem_escape (text : String) : '\n' ∉ (escape text).toList := by
  simp only [escape, String.toList_ofList, List.mem_flatMap, not_exists, not_and]
  intro c _
  unfold escapeChar
  split
  · decide
  · decide
  · decide
  · rename_i h _ _
    simpa using fun e => h e.symm

end TreeAccord.Dump
