import TreeAccord.Text.CodeRanges

/-!
# White space

A character is blank when it has the Unicode property White_Space, which holds the ASCII blanks
from tab to carriage return, the space, the no-break space and the spaces and separators beyond.
-/

namespace TreeAccord.Text

/-- The code points with the property White_Space. -/
def whiteSpace : CodeRanges :=
  [(0x09, 0x0D), (0x20, 0x20), (0x85, 0x85), (0xA0, 0xA0), (0x1680, 0x1680), (0x2000, 0x200A),
    (0x2028, 0x2029), (0x202F, 0x202F), (0x205F, 0x205F), (0x3000, 0x3000)]

def isBlank (c : Char) : Bool := whiteSpace.has c

/-- The text without its leading blanks. -/
def trimStart (cs : List Char) : List Char := cs.dropWhile isBlank

/-- The text without its trailing blanks. -/
def trimEnd (cs : List Char) : List Char := (cs.reverse.dropWhile isBlank).reverse

/-- The text without the blanks at either end. -/
def trim (cs : List Char) : List Char := trimEnd (trimStart cs)

theorem isBlank_space : isBlank ' ' = true := by decide

end TreeAccord.Text
