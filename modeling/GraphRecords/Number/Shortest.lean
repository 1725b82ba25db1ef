import GraphRecords.Number.Binary64

/-!
# Shortest decimal text of a double

The text has the fewest digits that read back as the same double and, of those, the nearest.
It is positional for decimal exponents from -5 to 15 and scientific elsewhere.
-/

namespace GraphRecords.Binary64

/-- The reals that round to `mantissa * 2 ^ exponent`, in quarters of the last place. -/
structure Interval where
  low : Nat
  centre : Nat
  high : Nat
  closed : Bool

/-- Below a power of two the spacing halves, and so does that side of the interval. -/
def interval (mantissa : Nat) (exponent : Int) : Interval where
  low := if mantissa = leadingBit && -1074 < exponent then 4 * mantissa - 1 else 4 * mantissa - 2
  centre := 4 * mantissa
  high := 4 * mantissa + 2
  closed := mantissa % 2 = 0

def Interval.holds (i : Interval) (up down digits : Nat) : Bool :=
  if i.closed then i.low * up ≤ digits * down && digits * down ≤ i.high * up
  else i.low * up < digits * down && digits * down < i.high * up

/-- The multiple of ten to `place` nearest to the centre, among those inside the interval. -/
def Interval.onGrid (i : Interval) (exponent place : Int) : Option Nat :=
  let up := Nat.pow 2 (exponent - 2).toNat * Nat.pow 10 (-place).toNat
  let down := Nat.pow 10 place.toNat * Nat.pow 2 (2 - exponent).toNat
  let floor := i.centre * up / down
  match i.holds up down floor, i.holds up down (floor + 1) with
  | true, false => some floor
  | false, true => some (floor + 1)
  | false, false => none
  | true, true => some (roundQuotient (i.centre * up) down)

/-- Tries ever finer decimal grids. -/
def Interval.search (i : Interval) (exponent : Int) : Nat → Int → Nat × Int
  | 0, place => (0, place)
  | tries + 1, place =>
      match i.onGrid exponent place with
      | some digits => (digits, place)
      | none => i.search exponent tries (place - 1)

/-- The fewest decimal digits, with their place, that read back as this absolute value. -/
def shortest (x : Binary64) : Nat × Int :=
  let (mantissa, exponent) := x.parts
  if mantissa = 0 then (0, 0)
  else
    let top := ((mantissa.log2 + 1 : Int) + exponent) * 30103 / 100000 + 2
    (interval mantissa exponent).search exponent 30 top

/-- Where positional notation ends: decimal exponents from `least` up to, but not at, `limit`. -/
structure Layout where
  least : Int
  limit : Int

def layout : Layout := ⟨-5, 16⟩

def zeros (n : Nat) : String := String.ofList (List.replicate n '0')

def positional (digits : List Char) (place : Int) : String :=
  let point := (digits.length : Int) + place
  if 0 ≤ place then String.ofList digits ++ zeros place.toNat ++ ".0"
  else if 0 < point then
    String.ofList (digits.take point.toNat) ++ "." ++ String.ofList (digits.drop point.toNat)
  else "0." ++ zeros (-point).toNat ++ String.ofList digits

def scientific (digits : List Char) (exponent : Int) : String :=
  let fraction := digits.drop 1
  String.ofList (digits.take 1) ++
    (if fraction.isEmpty then "" else "." ++ String.ofList fraction) ++
    "e" ++ (if exponent < 0 then "-" else "+") ++ toString exponent.natAbs

/-- The shortest text of a double, with a point or an exponent always. -/
def render (x : Binary64) : String :=
  let (digits, place) := x.shortest
  let chars := Nat.toDigits 10 digits
  let exponent := (chars.length : Int) + place - 1
  (if x.isNegative then "-" else "") ++
    (if layout.least ≤ exponent && exponent < layout.limit then positional chars place
      else scientific chars exponent)

end GraphRecords.Binary64
