/-!
# Binary64 numbers

A double is its 64 bits, all arithmetic on it is exact arithmetic on naturals. Only finite
doubles arise. Order and equality go by `key`, which identifies the two zeros.
-/

namespace GraphRecords

structure Binary64 where
  bits : UInt64
  deriving Repr, DecidableEq, Inhabited

namespace Binary64

/-- The bit of the sign. -/
def signBit : Nat := 0x8000000000000000

/-- One in the bits of the exponent, and the leading bit of a significand. -/
def leadingBit : Nat := 0x10000000000000

def isNegative (x : Binary64) : Bool := signBit ≤ x.bits.toNat

/-- The bits without the sign, which grow with the absolute value. -/
def magnitude (x : Binary64) : Nat := x.bits.toNat % signBit

def key (x : Binary64) : Int :=
  if x.isNegative then -(x.magnitude : Int) else x.magnitude

def same (x y : Binary64) : Bool := x.key == y.key

def compare (x y : Binary64) : Ordering := Ord.compare x.key y.key

/-- The absolute value is the first component times two to the second. -/
def parts (x : Binary64) : Nat × Int :=
  let exponent : Nat := x.magnitude / leadingBit
  let fraction : Nat := x.magnitude % leadingBit
  if exponent = 0 then (fraction, -1074) else (leadingBit + fraction, (exponent : Int) - 1075)

/-- The quotient rounded to the nearest natural, a half going to the even neighbour. -/
def roundQuotient (num den : Nat) : Nat :=
  let q := num / den
  let r := num % den
  if 2 * r < den then q else if den < 2 * r then q + 1 else q + q % 2

/-- The quotient of `num` by `den` times two to `exponent`, as a fraction. -/
def scaleDown (num den : Nat) (exponent : Int) : Nat × Nat :=
  (num * Nat.pow 2 (-exponent).toNat, den * Nat.pow 2 exponent.toNat)

/-- The exponent of the last place of the double nearest to a positive quotient. -/
def lastPlace (num den : Nat) : Int :=
  let low := max ((num.log2 : Int) - den.log2 - 53) (-1074)
  let (n, d) := scaleDown num den low
  if n / d < 2 * leadingBit then low else low + 1

/-- The magnitude bits of the double nearest to `num / den`. A mantissa rounded up to the next
power of two carries into the exponent bits. -/
def magnitudeOfQuotient (num den : Nat) : Nat :=
  if num = 0 then 0
  else
    let exponent := lastPlace num den
    let (n, d) := scaleDown num den exponent
    (exponent + 1074).toNat * leadingBit + roundQuotient n d

def infinityMagnitude : Nat := 2047 * leadingBit

/-- The double nearest to a quotient, ties to even; nothing past the largest finite one. -/
def ofQuotient? (negative : Bool) (num den : Nat) : Option Binary64 :=
  let magnitude := magnitudeOfQuotient num den
  if magnitude < infinityMagnitude then
    some ⟨UInt64.ofNat (if negative then signBit + magnitude else magnitude)⟩
  else none

/-- The double nearest to an integer, ties to even, clamped at the largest finite one. -/
def ofInt (i : Int) : Binary64 :=
  (ofQuotient? (i < 0) i.natAbs 1).getD
    ⟨UInt64.ofNat ((if i < 0 then signBit else 0) + (infinityMagnitude - 1))⟩

/-- The double nearest to `digits` times ten to `exponent`. Decimals far outside the range of the
format are settled by their length. -/
def ofDecimal? (negative : Bool) (digits : Nat) (exponent : Int) : Option Binary64 :=
  let length : Int := (Nat.toDigits 10 digits).length
  if digits = 0 || length + exponent < -400 then ofQuotient? negative 0 1
  else if 400 < length + exponent then none
  else ofQuotient? negative (digits * Nat.pow 10 exponent.toNat) (Nat.pow 10 (-exponent).toNat)

example : (ofInt 1).bits = 0x3ff0000000000000 := by decide +kernel
example : ofInt 9007199254740993 = ofInt 9007199254740992 := by decide +kernel
example : ofDecimal? false 1 (-1) = some ⟨0x3fb999999999999a⟩ := by decide +kernel
example : ofDecimal? false 5 (-324) = some ⟨1⟩ := by decide +kernel
example : ofDecimal? true 0 0 = some ⟨0x8000000000000000⟩ := by decide +kernel

end Binary64

end GraphRecords
