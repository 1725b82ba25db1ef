/-!
# Instants

A moment of universal time, its reading in milliseconds and its text in the RFC 3339 form with
the offset `+00:00`.
-/

namespace GraphRecords

/-- Seconds since 1970, of either sign, and the nanoseconds past that second. A leap second is
the second before it with a whole second of nanoseconds or more. -/
structure Instant where
  seconds : Int
  nanoseconds : Nat
  deriving Repr, DecidableEq

namespace Instant

/-- Whole milliseconds since 1970, rounded down. -/
def milliseconds (t : Instant) : Int := t.seconds * 1000 + (t.nanoseconds / 1000000 : Nat)

structure Date where
  year : Int
  month : Nat
  day : Nat
  deriving Repr, DecidableEq

/-- The proleptic Gregorian date of a day counted from 1970-01-01. Years are taken to begin in
March, so that the leap day is the last of its year. -/
def dateOfDay (day : Int) : Date :=
  let shifted := day + 719468
  let era := shifted.fdiv 146097
  let dayOfEra := (shifted.fmod 146097).toNat
  let yearOfEra := (dayOfEra - dayOfEra / 1460 + dayOfEra / 36524 - dayOfEra / 146096) / 365
  let dayOfYear := dayOfEra - (365 * yearOfEra + yearOfEra / 4 - yearOfEra / 100)
  let marchMonth := (5 * dayOfYear + 2) / 153
  let month := if marchMonth < 10 then marchMonth + 3 else marchMonth - 9
  { year := era * 400 + yearOfEra + (if month ≤ 2 then 1 else 0)
    month := month
    day := dayOfYear - (153 * marchMonth + 2) / 5 + 1 }

def padded (width n : Nat) : String :=
  let digits := toString n
  String.ofList (List.replicate (width - digits.length) '0') ++ digits

/-- Four digits at least, with a sign outside the years 0 to 9999. -/
def yearText (year : Int) : String :=
  if year < 0 then "-" ++ padded 4 year.natAbs
  else if 9999 < year then "+" ++ padded 4 year.natAbs
  else padded 4 year.natAbs

/-- No fraction, or three, six or nine digits, the fewest that are exact. -/
def fractionText (nanoseconds : Nat) : String :=
  if nanoseconds = 0 then ""
  else if nanoseconds % 1000000 = 0 then "." ++ padded 3 (nanoseconds / 1000000)
  else if nanoseconds % 1000 = 0 then "." ++ padded 6 (nanoseconds / 1000)
  else "." ++ padded 9 nanoseconds

def render (t : Instant) : String :=
  let date := dateOfDay (t.seconds.fdiv 86400)
  let second := (t.seconds.fmod 86400).toNat
  yearText date.year ++ "-" ++ padded 2 date.month ++ "-" ++ padded 2 date.day ++ "T" ++
    padded 2 (second / 3600) ++ ":" ++ padded 2 (second / 60 % 60) ++ ":" ++
    padded 2 (second % 60 + t.nanoseconds / 1000000000) ++
    fractionText (t.nanoseconds % 1000000000) ++ "+00:00"

example : dateOfDay 0 = ⟨1970, 1, 1⟩ := by decide
example : dateOfDay 11016 = ⟨2000, 2, 29⟩ := by decide
example : dateOfDay (-719529) = ⟨-1, 12, 31⟩ := by decide

end Instant

end GraphRecords
