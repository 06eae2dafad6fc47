/-!
# The shortest decimal of a float

Every float is an integer times a power of two, and all reals nearer to it than to its neighbours
round to it. Among the decimals that do, the shortest is sought, and among those of one length the
nearest; of two equally near the one with the even last digit.
-/

namespace TreeAccord.Text.Decimal

/-- The value `significand * 2 ^ exponent`. The float below lies nearer when `narrow`. -/
structure Binary where
  significand : Nat
  exponent : Int
  narrow : Bool

/-- The value `digits * 10 ^ exponent`. -/
structure Scaled where
  digits : Nat
  exponent : Int

/-- The leading bit of a significand, which is not stored. -/
def hiddenBit : Nat := 0x10000000000000

/-- The bit that holds the sign. -/
def signBit : Nat := 0x8000000000000000

/-- The parts of a positive finite float. -/
def ofBits (bits : Nat) : Binary :=
  let fraction : Nat := bits % hiddenBit
  let field : Nat := bits / hiddenBit % 0x800
  if field = 0 then ⟨fraction, -1074, false⟩
  else ⟨hiddenBit + fraction, (field : Int) - 1075, fraction = 0 && 1 < field⟩

/-- A positive power as a factor, a negative one as none. -/
def power (base : Nat) (e : Int) : Nat := Nat.pow base e.toNat

/-- Compares `d * 10 ^ s` with `m * 2 ^ q`. -/
def order (d : Nat) (s : Int) (m : Nat) (q : Int) : Ordering :=
  compare (d * power 10 s * power 2 (-q)) (m * power 2 q * power 10 (-s))

/-- Whether `d * 10 ^ s` rounds to the float; the ends do if its significand is even. -/
def roundsTo (b : Binary) (d : Nat) (s : Int) : Bool :=
  let q := b.exponent - 2
  let low := order d s (4 * b.significand - (if b.narrow then 1 else 2)) q
  let high := order d s (4 * b.significand + 2) q
  let even := b.significand % 2 = 0
  (low == .gt || (even && low == .eq)) && (high == .lt || (even && high == .eq))

/-- The greatest multiple of `10 ^ s` that is not above the float. -/
def below (b : Binary) (s : Int) : Nat :=
  b.significand * power 2 b.exponent * power 10 (-s) / (power 2 (-b.exponent) * power 10 s)

/-- The neighbour on the grid of `10 ^ s` that rounds to the float, the nearer one of two. -/
def onGrid? (b : Binary) (s : Int) : Option Nat :=
  let d := below b s
  match roundsTo b d s, roundsTo b (d + 1) s with
  | true, true =>
    match order (2 * d + 1) s (2 * b.significand) b.exponent with
    | .gt => some d
    | .lt => some (d + 1)
    | .eq => some (if d % 2 = 0 then d else d + 1)
  | true, false => some d
  | false, true => some (d + 1)
  | false, false => none

/-- The exponent of the first digit: the greatest `e` with `10 ^ e` not above the float, found by
going down from `e`. -/
def leadingExponent (b : Binary) : (fuel : Nat) → (e : Int) → Int
  | 0, e => e
  | fuel + 1, e =>
    if order 1 e b.significand b.exponent == .gt then leadingExponent b fuel (e - 1) else e

/-- Moves zeros at the end of the digits into the exponent. -/
def strip : (fuel : Nat) → Scaled → Scaled
  | 0, d => d
  | fuel + 1, d =>
    if d.digits ≠ 0 ∧ d.digits % 10 = 0 then strip fuel ⟨d.digits / 10, d.exponent + 1⟩ else d

/-- The shortest decimal of a positive float. Seventeen digits always suffice. -/
def shortest (b : Binary) : Scaled :=
  let e := leadingExponent b 700 309
  let grids := (List.range 17).map fun (n : Nat) => e - (n : Int)
  match grids.findSome? fun s => (onGrid? b s).map (Scaled.mk · s) with
  | some d => strip 20 d
  | none => ⟨0, 0⟩

def zeros (n : Int) : List Char := List.replicate n.toNat '0'

/-- An exponent with its sign. -/
def signed (e : Int) : List Char := if 0 ≤ e then '+' :: (toString e).toList else (toString e).toList

/-- Writes a decimal: positional from 10⁻⁵ up to 10¹⁶, always with a point and a digit behind it,
and with a signed exponent otherwise. -/
def write (d : Scaled) : String :=
  let digits := Nat.toDigits 10 d.digits
  let point := (digits.length : Int) + d.exponent
  String.ofList <|
    if 0 ≤ d.exponent ∧ point ≤ 16 then digits ++ zeros d.exponent ++ ['.', '0']
    else if 0 < point ∧ point ≤ 16 then
      digits.take point.toNat ++ '.' :: digits.drop point.toNat
    else if -5 < point ∧ point ≤ 0 then '0' :: '.' :: (zeros (-point) ++ digits)
    else
      let fraction := digits.drop 1
      digits.take 1 ++ (if fraction.isEmpty then [] else '.' :: fraction)
        ++ 'e' :: signed (point - 1)

/-- The text of a finite float. -/
def ofFloat (x : Float) : String :=
  let bits := x.toBits.toNat
  let size := bits % signBit
  let text := if size = 0 then "0.0" else write (shortest (ofBits size))
  if bits < signBit then text else "-" ++ text

end TreeAccord.Text.Decimal
