import TreeAccord.Text.Printable

/-!
# Quoted text

A text between double quotes in which quotes, backslashes and line breaks are escaped, and every
character that would not be seen is given by its code in braces.
-/

namespace TreeAccord.Text

/-- The code of a character in lower-case hexadecimal, between braces. -/
def bracedCode (c : Char) : List Char :=
  '\\' :: 'u' :: '\x7b' :: (Nat.toDigits 16 c.toNat ++ ['\x7d'])

def quotedChar (c : Char) : List Char :=
  match c with
  | '"' => ['\\', '"']
  | '\\' => ['\\', '\\']
  | '\n' => ['\\', 'n']
  | '\r' => ['\\', 'r']
  | '\t' => ['\\', 't']
  | '\x00' => ['\\', '0']
  | c => if isShown c then [c] else bracedCode c

/-- The text in quotes. -/
def quoted (text : String) : String :=
  String.ofList ('"' :: (text.toList.flatMap quotedChar ++ ['"']))

end TreeAccord.Text
