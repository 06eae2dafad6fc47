import TreeAccord.Json.Fault
import TreeAccord.Text.Decimal

/-!
# Reading JSON numbers

Numbers occur only where another kind of value belongs, so they are read to be described, or
skipped. A whole number that fits 64 bits is an integer; any other number is a float. A float is
found from its first digits, as many as fit 64 bits, with one multiplication or division by a power
of ten.
-/

namespace TreeAccord.Json

def isDigit (c : Char) : Bool := '0' ≤ c && c ≤ '9'

def digitValue (c : Char) : Nat := c.toNat - '0'.toNat

/-- The digits at the front, and what follows. -/
def cutDigits (cs : List Char) : List Char × List Char :=
  (cs.takeWhile isDigit, cs.dropWhile isDigit)

def startsExponent (cs : List Char) : Bool := cs.head?.any fun c => c = 'e' || c = 'E'

/-! ## Skipping -/

def skipSign (cs : List Char) : List Char :=
  match cs with
  | '+' :: rest | '-' :: rest => rest
  | _ => cs

/-- Passes over an exponent, from behind its letter. -/
def skipExponent (cs : List Char) : Except Fault (List Char) :=
  match skipSign cs with
  | c :: rest =>
    if isDigit c then .ok (rest.dropWhile isDigit) else Fault.next .invalidNumber (c :: rest)
  | [] => Fault.here .invalidNumber []

/-- Passes over what may follow the whole part of a number. -/
def skipFraction (cs : List Char) : Except Fault (List Char) :=
  match cs with
  | '.' :: rest =>
    let (digits, after) := cutDigits rest
    if digits.isEmpty then Fault.next .invalidNumber after
    else if startsExponent after then skipExponent (after.drop 1)
    else .ok after
  | _ => if startsExponent cs then skipExponent (cs.drop 1) else .ok cs

/-- Passes over a number, from behind its sign. -/
def skipNumber (cs : List Char) : Except Fault (List Char) :=
  match cs with
  | [] => Fault.here .invalidNumber []
  | c :: rest =>
    if c = '0' then
      if rest.head?.any isDigit then Fault.next .invalidNumber rest else skipFraction rest
    else if isDigit c then skipFraction (rest.dropWhile isDigit)
    else Fault.next .invalidNumber cs

/-! ## Values -/

/-- The greatest number of 64 bits. -/
def maxWord : Nat := 0xFFFFFFFFFFFFFFFF

/-- Takes digits in while the number fits 64 bits; also how many there were. -/
def takeIn (n : Nat) : List Char → Nat × Nat
  | [] => (n, 0)
  | c :: rest =>
    if 10 * n + digitValue c ≤ maxWord then
      let (m, count) := takeIn (10 * n + digitValue c) rest
      (m, count + 1)
    else (n, 0)

/-- A power of ten between 0 and 308. -/
def powerOfTen (n : Nat) : Float := Float.ofScientific 1 false n

/-- The float `significand * 10 ^ exponent`, or none if it is too great. -/
def scale? (significand : Nat) (exponent : Int) : Option Float :=
  let x := (UInt64.ofNat significand).toFloat
  let n := exponent.natAbs
  if significand = 0 then some 0.0
  else if 0 ≤ exponent then
    if n ≤ 308 then
      let y := x * powerOfTen n
      if y.isInf then none else some y
    else none
  else if n ≤ 308 then some (x / powerOfTen n)
  else if n ≤ 616 then some (x / powerOfTen 308 / powerOfTen (n - 308))
  else some 0.0

/-- Describes the float with the given sign, digits and exponent, which end before `rest`. -/
def describeFloat (negative : Bool) (significand : Nat) (exponent : Int) (rest : List Char) :
    Except Fault (Found × List Char) :=
  match scale? significand exponent with
  | some x => .ok (.float (Text.Decimal.ofFloat (if negative then -x else x)), rest)
  | none => Fault.here .numberOutOfRange rest

/-- The greatest exponent that is read; a greater one takes the float to zero or out of range. -/
def maxExponent : Nat := 0x7FFFFFFF

/-- Takes in the digits of an exponent up to the first that makes it too great. -/
def takeExponent (n : Nat) : List Char → Nat × List Char
  | [] => (n, [])
  | c :: rest =>
    if isDigit c then
      if 10 * n + digitValue c ≤ maxExponent then takeExponent (10 * n + digitValue c) rest
      else (10 * n + digitValue c, rest)
    else (n, c :: rest)

/-- Reads an exponent from behind its letter. -/
def readExponent (negative : Bool) (significand : Nat) (exponent : Int) (cs : List Char) :
    Except Fault (Found × List Char) :=
  let down := cs.head? = some '-'
  match skipSign cs with
  | [] => Fault.here .endInValue []
  | c :: rest =>
    if !isDigit c then Fault.next .invalidNumber (c :: rest)
    else
      let (n, rest) := takeExponent (digitValue c) rest
      if maxExponent < n then
        if significand ≠ 0 && !down then Fault.here .numberOutOfRange rest
        else .ok (.float (if negative then "-0.0" else "0.0"), rest.dropWhile isDigit)
      else describeFloat negative significand (exponent + (if down then -(n : Int) else n)) rest

/-- Reads what follows the digits of a float before its exponent. -/
def readScale (negative : Bool) (significand : Nat) (exponent : Int) (cs : List Char) :
    Except Fault (Found × List Char) :=
  if startsExponent cs then readExponent negative significand exponent (cs.drop 1)
  else describeFloat negative significand exponent cs

/-- Reads the digits behind a point. -/
def readFraction (negative : Bool) (significand : Nat) (exponent : Int) (cs : List Char) :
    Except Fault (Found × List Char) :=
  let (digits, rest) := cutDigits cs
  if digits.isEmpty then
    Fault.next (if rest.isEmpty then .endInValue else .invalidNumber) rest
  else
    let (m, count) := takeIn significand digits
    readScale negative m (exponent - (count : Int)) rest

/-- The greatest number that stays an integer with a minus sign. -/
def maxNegative : Nat := 0x8000000000000000

/-- The number whose whole part is `n`: an integer if it fits. -/
def wholeNumber (negative : Bool) (n : Nat) : Found :=
  if !negative then .integer n
  else if n = 0 ∨ maxNegative < n then .float (Text.Decimal.ofFloat (-(UInt64.ofNat n).toFloat))
  else .integer (-(n : Int))

/-- Reads a number from behind its sign. -/
def readNumber (negative : Bool) (cs : List Char) : Except Fault (Found × List Char) :=
  match cs with
  | [] => Fault.here .endInValue []
  | c :: rest =>
    if !isDigit c then Fault.next .invalidNumber cs
    else if c = '0' && rest.head?.any isDigit then Fault.next .invalidNumber rest
    else
      let (digits, after) := cutDigits cs
      let (n, count) := takeIn 0 digits
      let dropped := digits.length - count
      match after with
      | '.' :: fraction => readFraction negative n dropped fraction
      | _ =>
        if dropped = 0 && !startsExponent after then .ok (wholeNumber negative n, after)
        else readScale negative n dropped after

end TreeAccord.Json
