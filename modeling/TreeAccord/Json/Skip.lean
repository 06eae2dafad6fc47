import TreeAccord.Json.Number
import TreeAccord.Json.Text

/-!
# Skipping JSON values

A value that nobody asks for is passed over. Lists and objects that are still open wait on a
stack, so values may be nested to any depth.
-/

namespace TreeAccord.Json

/-- Reads the rest of a word such as `null`. -/
def readWord : (word : List Char) → List Char → Except Fault (List Char)
  | [], cs => .ok cs
  | _ :: _, [] => Fault.here .endInValue []
  | w :: ws, c :: rest => if c = w then readWord ws rest else Fault.next .expectedWord (c :: rest)

/-- An open list or object. -/
inductive Frame where
  | list
  | object
deriving DecidableEq, Repr

namespace Frame

def closing : Frame → Char
  | list => ']'
  | object => '\x7d'

/-- The fault of a text that ends inside. -/
def unfinished : Frame → Cause
  | list => .endInList
  | object => .endInObject

/-- The fault of a value that is followed by neither a comma nor the end. -/
def unseparated : Frame → Cause
  | list => .expectedItemEnd
  | object => .expectedFieldEnd

end Frame

/-- Reads a colon. -/
def readColon (cs : List Char) : Except Fault (List Char) :=
  match skipGaps cs with
  | ':' :: rest => .ok rest
  | [] => Fault.next .endInObject []
  | rest => Fault.next .expectedColon rest

/-- Closes frames as far as they end here. With `afterValue` a comma is taken, and one has to come
unless the frame ends. What remains open is about to get its next value. -/
def closeFrames (afterValue : Bool) :
    List Frame → List Char → Except Fault (List Frame × List Char)
  | [], cs => .ok ([], cs)
  | frame :: outer, cs =>
    match skipGaps cs with
    | [] => Fault.next frame.unfinished []
    | c :: rest =>
      if afterValue && c = ',' then .ok (frame :: outer, rest)
      else if c = frame.closing then closeFrames true outer rest
      else if afterValue then Fault.next frame.unseparated (c :: rest)
      else .ok (frame :: outer, c :: rest)

/-- Passes over the key and the colon before the next value of an object. -/
def skipKey (frame : Frame) (cs : List Char) : Except Fault (List Char) :=
  match frame with
  | .list => .ok cs
  | .object =>
    match skipGaps cs with
    | '"' :: rest => do readColon (← skipQuoted rest)
    | [] => Fault.next .endInObject []
    | rest => Fault.next .expectedKey rest

/-- Passes over a value without parts, or into a list or an object. -/
def skipStart (cs : List Char) : Except Fault (Option Frame × List Char) :=
  match skipGaps cs with
  | [] => Fault.next .endInValue []
  | c :: rest =>
    let scalar (after : Except Fault (List Char)) := after.map fun rest => (none, rest)
    if c = 'n' then scalar (readWord ['u', 'l', 'l'] rest)
    else if c = 't' then scalar (readWord ['r', 'u', 'e'] rest)
    else if c = 'f' then scalar (readWord ['a', 'l', 's', 'e'] rest)
    else if c = '-' then scalar (skipNumber rest)
    else if isDigit c then scalar (skipNumber (c :: rest))
    else if c = '"' then scalar (skipQuoted rest)
    else if c = '[' then .ok (some .list, rest)
    else if c = '\x7b' then .ok (some .object, rest)
    else Fault.next .expectedValue (c :: rest)

/-- Passes over a value and all that the open frames still hold, one start of a value for each
round of `fuel`. -/
def skipWithin : (fuel : Nat) → List Frame → List Char → Except Fault (List Char)
  | 0, _, cs => Fault.here .endInValue cs
  | fuel + 1, stack, cs => do
    let (opened?, rest) ← skipStart cs
    let (stack, rest) ← closeFrames opened?.isNone (opened?.toList ++ stack) rest
    match stack with
    | [] => return rest
    | frame :: _ => skipWithin fuel stack (← skipKey frame rest)

/-- Passes over a value. -/
def skipValue (cs : List Char) : Except Fault (List Char) := skipWithin (cs.length + 1) [] cs

end TreeAccord.Json
