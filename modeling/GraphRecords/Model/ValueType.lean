import GraphRecords.Json.Basic

/-!
# Value types

The types that a plain attribute may declare for its values.
-/

namespace GraphRecords

inductive ValueType where
  | string
  | number
  | boolean
  | json
  | ref
  deriving Repr, DecidableEq, Inhabited

namespace ValueType

def name : ValueType → String
  | string => "string"
  | number => "number"
  | boolean => "boolean"
  | json => "json"
  | ref => "ref"

def all : List ValueType := [string, number, boolean, json, ref]

def ofName? (name : String) : Option ValueType := all.find? (·.name = name)

theorem ofName?_name (type : ValueType) : ofName? type.name = some type := by
  cases type <;> rfl

/-- The value, null apart, is one of the type. -/
def accepts : ValueType → Json → Bool
  | string, value => value.isString
  | number, value => value.isNumber
  | boolean, value => value.isBool
  | json, _ => true
  | ref, _ => true

/-- Null is a value of the type whatever `allowNull` is. -/
def acceptsNull : ValueType → Bool
  | json | ref => true
  | _ => false

end ValueType

end GraphRecords
