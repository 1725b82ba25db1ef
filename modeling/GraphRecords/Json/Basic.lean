import GraphRecords.Dict
import GraphRecords.Number.Binary64

/-!
# JSON values

Objects are dictionaries, so their keys are in order. An integer and a double are different
values even when they stand for the same number.
-/

namespace GraphRecords

/-- Integers lie between `-2 ^ 63` and `2 ^ 64 - 1`: a reader takes all others as doubles. -/
inductive Number where
  | int (value : Int)
  | float (value : Binary64)
  deriving Repr, DecidableEq, Inhabited

namespace Number

def same : Number → Number → Bool
  | .int a, .int b => a == b
  | .float a, .float b => a.same b
  | _, _ => false

def toBinary64 : Number → Binary64
  | .int value => .ofInt value
  | .float value => value

end Number

inductive Json where
  | null
  | bool (value : Bool)
  | num (value : Number)
  | str (value : String)
  | arr (items : List Json)
  | obj (fields : Dict Json)
  deriving Repr, Inhabited

/-- A record: a value for each of its keys. -/
abbrev Record := Dict Json

namespace Json

def int (value : Int) : Json := .num (.int value)

def nat (value : Nat) : Json := .num (.int value)

def strings (names : List String) : Json := .arr (names.map .str)

/-- An object from its entries; a later entry replaces an earlier one of the same key. -/
def object (entries : List (String × Json)) : Json := .obj (.ofList entries)

def isNull : Json → Bool
  | .null => true
  | _ => false

def isString : Json → Bool
  | .str _ => true
  | _ => false

def isNumber : Json → Bool
  | .num _ => true
  | _ => false

def isBool : Json → Bool
  | .bool _ => true
  | _ => false

def toBool? : Json → Option Bool
  | .bool value => some value
  | _ => none

def toString? : Json → Option String
  | .str value => some value
  | _ => none

def toArray? : Json → Option (List Json)
  | .arr items => some items
  | _ => none

def toObject? : Json → Option Record
  | .obj fields => some fields
  | _ => none

/-- The value as a natural number, when it is an integer and not negative. -/
def toNat? : Json → Option Nat
  | .num (.int value) => if 0 ≤ value then some value.toNat else none
  | _ => none

/-- The value as a signed 64-bit integer. -/
def toInt? : Json → Option Int
  | .num (.int value) =>
      if -0x8000000000000000 ≤ value ∧ value < 0x8000000000000000 then some value else none
  | _ => none

/-- The value of a key, when the value is an object that has it. -/
def field? (value : Json) (key : String) : Option Json :=
  value.toObject?.bind (·.get? key)

mutual

/-- Equality by representation, in which the two zeros of the doubles are one. -/
def same : Json → Json → Bool
  | .null, .null => true
  | .bool a, .bool b => a == b
  | .num a, .num b => a.same b
  | .str a, .str b => a == b
  | .arr xs, .arr ys => sameItems xs ys
  | .obj ⟨xs⟩, .obj ⟨ys⟩ => sameFields xs ys
  | _, _ => false

def sameItems : List Json → List Json → Bool
  | [], [] => true
  | x :: xs, y :: ys => x.same y && sameItems xs ys
  | _, _ => false

def sameFields : List (String × Json) → List (String × Json) → Bool
  | [], [] => true
  | (k, x) :: xs, (l, y) :: ys => k == l && x.same y && sameFields xs ys
  | _, _ => false

end

instance : BEq Json := ⟨same⟩

end Json

/-- The value of a key, null when the record lacks it. -/
def Dict.getD (record : Record) (key : String) : Json := (record.get? key).getD .null

end GraphRecords
