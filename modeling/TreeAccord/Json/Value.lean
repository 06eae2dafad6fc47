/-!
# Writing JSON

Values made of texts, lists and objects, and their two written forms: compact, without any space,
and pretty, with each item on a line of its own.
-/

namespace TreeAccord

inductive Json where
  | text (s : String)
  | list (items : List Json)
  | object (fields : List (String × Json))

namespace Json

/-- The code of a control character, in four hexadecimal digits. -/
def controlCode (c : Char) : List Char :=
  ['\\', 'u', '0', '0', Nat.digitChar (c.toNat / 16), Nat.digitChar (c.toNat % 16)]

/-- A character inside a written text. -/
def escapedChar (c : Char) : List Char :=
  match c with
  | '"' => ['\\', '"']
  | '\\' => ['\\', '\\']
  | '\x08' => ['\\', 'b']
  | '\t' => ['\\', 't']
  | '\n' => ['\\', 'n']
  | '\x0c' => ['\\', 'f']
  | '\r' => ['\\', 'r']
  | c => if c.toNat < 0x20 then controlCode c else [c]

/-- A text in its written form. -/
def quote (s : String) : String :=
  String.ofList ('"' :: (s.toList.flatMap escapedChar ++ ['"']))

mutual
def compact : Json → String
  | text s => quote s
  | list items => "[" ++ compactItems items ++ "]"
  | object fields => "\x7b" ++ compactFields fields ++ "\x7d"

def compactItems : List Json → String
  | [] => ""
  | [v] => compact v
  | v :: vs => compact v ++ "," ++ compactItems vs

def compactFields : List (String × Json) → String
  | [] => ""
  | [(name, v)] => quote name ++ ":" ++ compact v
  | (name, v) :: rest => quote name ++ ":" ++ compact v ++ "," ++ compactFields rest
end

/-- The start of a line at the given level. -/
def lineStart (level : Nat) : String := "\n" ++ String.ofList (List.replicate (2 * level) ' ')

mutual
/-- The pretty form of a value that stands at the given level. -/
def prettyAt (level : Nat) : Json → String
  | text s => quote s
  | list [] => "[]"
  | list items => "[" ++ prettyItems (level + 1) items ++ lineStart level ++ "]"
  | object [] => "\x7b\x7d"
  | object fields => "\x7b" ++ prettyFields (level + 1) fields ++ lineStart level ++ "\x7d"

def prettyItems (level : Nat) : List Json → String
  | [] => ""
  | [v] => lineStart level ++ prettyAt level v
  | v :: vs => lineStart level ++ prettyAt level v ++ "," ++ prettyItems level vs

def prettyFields (level : Nat) : List (String × Json) → String
  | [] => ""
  | [(name, v)] => lineStart level ++ quote name ++ ": " ++ prettyAt level v
  | (name, v) :: rest =>
    lineStart level ++ quote name ++ ": " ++ prettyAt level v ++ "," ++ prettyFields level rest
end

def pretty (v : Json) : String := prettyAt 0 v

end Json

end TreeAccord
