import TreeAccord.Json.Fault

/-!
# Reading JSON texts

What stands between the quotes of a text. A text that is used is decoded; one that is skipped only
has to be well-formed, and may then hold halves of a surrogate pair.
-/

namespace TreeAccord.Json

/-- The characters between tokens. -/
def isGap (c : Char) : Bool := c = ' ' || c = '\n' || c = '\t' || c = '\r'

def skipGaps (cs : List Char) : List Char := cs.dropWhile isGap

def hexValue? (c : Char) : Option Nat :=
  if '0' ≤ c ∧ c ≤ '9' then some (c.toNat - '0'.toNat)
  else if 'a' ≤ c ∧ c ≤ 'f' then some (c.toNat - 'a'.toNat + 10)
  else if 'A' ≤ c ∧ c ≤ 'F' then some (c.toNat - 'A'.toNat + 10)
  else none

def hexNumber? (cs : List Char) : Option Nat :=
  cs.foldlM (fun n c => (hexValue? c).map (16 * n + ·)) 0

/-- The four digits of a numeric escape. Four bytes are read before they are looked at. -/
def fourDigits (cs : List Char) : Except Fault (Nat × List Char) :=
  if Text.byteCount (cs.take 4) < 4 then Fault.here .endInText []
  else
    match cs with
    | a :: b :: c :: d :: rest =>
      match hexNumber? [a, b, c, d] with
      | some n => .ok (n, rest)
      | none => .error ⟨.invalidEscape, cs, 4⟩
    | _ => .error ⟨.invalidEscape, cs, 4⟩

/-- The character of an escape of one letter. -/
def letterEscape? (c : Char) : Option Char :=
  match c with
  | '"' => some '"'
  | '\\' => some '\\'
  | '/' => some '/'
  | 'b' => some '\x08'
  | 'f' => some '\x0c'
  | 'n' => some '\n'
  | 'r' => some '\r'
  | 't' => some '\t'
  | _ => none

def isLeading (n : Nat) : Bool := 0xD800 ≤ n && n ≤ 0xDBFF

def isTrailing (n : Nat) : Bool := 0xDC00 ≤ n && n ≤ 0xDFFF

/-- Reads the character `c`, whose absence is a broken pair. -/
def pairChar (c : Char) : List Char → Except Fault (List Char)
  | [] => Fault.here .endInText []
  | d :: rest => if d = c then .ok rest else Fault.next .endInEscape (d :: rest)

/-- The character of a numeric escape, which takes two escapes beyond U+FFFF. -/
def numericEscape (cs : List Char) : Except Fault (Char × List Char) := do
  let (n, rest) ← fourDigits cs
  if isTrailing n then Fault.here .loneSurrogate rest
  else if isLeading n then
    let rest ← pairChar '\\' rest
    let rest ← pairChar 'u' rest
    let (m, rest) ← fourDigits rest
    if isTrailing m then .ok (Char.ofNat ((n - 0xD800) * 0x400 + (m - 0xDC00) + 0x10000), rest)
    else Fault.here .loneSurrogate rest
  else .ok (Char.ofNat n, rest)

/-- The character of an escape, after its backslash. -/
def escape (cs : List Char) : Except Fault (Char × List Char) :=
  match cs with
  | [] => Fault.here .endInText []
  | 'u' :: rest => numericEscape rest
  | c :: rest =>
    match letterEscape? c with
    | some d => .ok (d, rest)
    | none => Fault.next .invalidEscape cs

/-- Reads a text that is used, from behind its opening quote. Each round of `fuel` reads one
character of the text. -/
def textBody : (fuel : Nat) → List Char → Except Fault (List Char × List Char)
  | 0, cs => Fault.here .endInText cs
  | _ + 1, [] => Fault.here .endInText []
  | fuel + 1, c :: rest =>
    if c = '"' then .ok ([], rest)
    else if c = '\\' then do
      let (d, rest) ← escape rest
      let (s, rest) ← textBody fuel rest
      return (d :: s, rest)
    else if c.toNat < 0x20 then Fault.next .controlCharacter (c :: rest)
    else do
      let (s, rest) ← textBody fuel rest
      return (c :: s, rest)

/-- Reads a text that is used, from behind its opening quote. -/
def readQuoted (cs : List Char) : Except Fault (String × List Char) := do
  let (s, rest) ← textBody (cs.length + 1) cs
  return (String.ofList s, rest)

/-- Passes over an escape, after its backslash. -/
def skipEscape (cs : List Char) : Except Fault (List Char) :=
  match cs with
  | [] => Fault.here .endInText []
  | 'u' :: rest => (fourDigits rest).map Prod.snd
  | c :: rest => if (letterEscape? c).isSome then .ok rest else Fault.next .invalidEscape cs

/-- Passes over a text that is not used, one character for each round of `fuel`. -/
def skipBody : (fuel : Nat) → List Char → Except Fault (List Char)
  | 0, cs => Fault.here .endInText cs
  | _ + 1, [] => Fault.here .endInText []
  | fuel + 1, c :: rest =>
    if c = '"' then .ok rest
    else if c = '\\' then do skipBody fuel (← skipEscape rest)
    else if c.toNat < 0x20 then Fault.here .controlCharacter (c :: rest)
    else skipBody fuel rest

/-- Passes over a text that is not used, from behind its opening quote. -/
def skipQuoted (cs : List Char) : Except Fault (List Char) := skipBody (cs.length + 1) cs

end TreeAccord.Json
