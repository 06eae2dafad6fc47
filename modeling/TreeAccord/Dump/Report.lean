import TreeAccord.Dump.Fault
import TreeAccord.Text.DisplayWidth

/-!
# Showing a fault in its source

A report names the fault, the place, and the offending line with a row of carets under it. Tabs
are shown as four spaces, other control characters as their pictures, and characters that redirect
the text flow as a replacement character; a joiner without width is left out. The path stands as it
is.
-/

namespace TreeAccord.Dump

/-- Characters that change the direction in which text flows. -/
def isFlowControl (c : Char) : Bool :=
  (0x202A ≤ c.toNat && c.toNat ≤ 0x202E) || (0x2066 ≤ c.toNat && c.toNat ≤ 0x2069)

/-- What a report shows in place of a character. -/
def picture (c : Char) : List Char :=
  if c = '\t' then [' ', ' ', ' ', ' ']
  else if c.toNat < 0x20 && c ≠ '\n' then [Char.ofNat (0x2400 + c.toNat)]
  else if c.toNat = 0x7F then ['␡']
  else if c.toNat = 0x200D then []
  else if isFlowControl c then ['�']
  else [c]

def depict (text : String) : String := String.ofList (text.toList.flatMap picture)

/-- The columns that a report gives a character. -/
def columns (c : Char) : Nat :=
  if c = '\t' then 4 else if isFlowControl c then 1 else Text.charWidth c

/-- The styles of a report's parts. -/
structure Styles where
  /-- The word `error`, the carets and the note. -/
  alarm : String
  /-- Line numbers, bars and the arrow. -/
  frame : String
  /-- The message. -/
  strong : String
  reset : String

namespace Styles

def ansi : Styles := ⟨"\x1b[1m\x1b[91m", "\x1b[1m\x1b[94m", "\x1b[1m", "\x1b[0m"⟩

def plain : Styles := ⟨"", "", "", ""⟩

def ofFlag (colored : Bool) : Styles := if colored then ansi else plain

def alarmed (s : Styles) (text : String) : String := s.alarm ++ text ++ s.reset

def framed (s : Styles) (text : String) : String := s.frame ++ text ++ s.reset

end Styles

def blanks (n : Nat) : String := String.ofList (List.replicate n ' ')

/-- A line as a report shows it: a carriage return belongs to the line end only before a line
feed, not at the end of the source. -/
def shownLine (source : String) (line : Nat) : String :=
  let all := pieces source.toList
  let piece := (all[line - 1]?).getD []
  depict (String.ofList (if line < all.length then dropReturn piece else piece))

/-- A line beside its bar. An empty line leaves the bar alone. -/
def besideBar (shown : String) : String := if shown.isEmpty then "" else " " ++ shown

/-- The bytes to mark: of a place without bytes the one that follows, if the source of `size` bytes
has one. -/
def Place.widened (place : Place) (size : Nat) : Place :=
  if place.start = place.stop then { place with stop := min (place.start + 1) size } else place

/-- The characters of the source that carets stand under. -/
def Place.marked (place : Place) (source : String) : List Char :=
  let cs := source.toList
  let range := place.widened (Text.byteCount cs)
  Text.takeBytes (range.stop - range.start) (Text.dropBytes range.start cs)

/-- The number of carets under some characters, one at least. -/
def caretCount (marked : List Char) : Nat := max 1 (marked.foldr (fun c n => columns c + n) 0)

/-- The report on a line at fault. -/
def reportAt (s : Styles) (fault : Fault) (place : Place) (source : String)
    (path? : Option String) : String :=
  let number := place.line.repr
  let margin := blanks number.length
  let bar := s.framed "|"
  let title := s.alarmed "error" ++ s.strong ++ ": " ++ depict fault.message ++ s.reset ++ "\n"
  let arrow := match path? with
    | some path => margin ++ s.framed "--> " ++ path ++ ":" ++ number ++ ":1\n"
    | none => ""
  let carets := String.ofList (List.replicate (caretCount (place.marked source)) '^')
  title ++ arrow ++ margin ++ " " ++ bar ++ "\n"
    ++ s.framed number ++ " " ++ bar ++ besideBar (shownLine source place.line) ++ "\n"
    ++ margin ++ " " ++ bar ++ " " ++ s.alarmed carets ++ " " ++ s.alarmed fault.note

/-- The report on a fault of `source`, which was read from `path?`. -/
def report (colored : Bool) (fault : Fault) (source : String) (path? : Option String) : String :=
  match fault.place? with
  | some place => reportAt (.ofFlag colored) fault place source path?
  | none =>
    match path? with
    | some path => "error: " ++ path ++ ": " ++ fault.message
    | none => "error: " ++ fault.message

end TreeAccord.Dump
