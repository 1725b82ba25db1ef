import GraphRecords.Json.Order
import GraphRecords.Model.Basic

/-!
# Filters

A filter is a dictionary: `and` and `or` combine filters, any other key constrains a column. A
constraint is a value to be equal to or a dictionary of modifiers that all have to hold.
-/

namespace GraphRecords

/-- What a modifier asks of a value, given its operand. -/
inductive Modifier where
  | isIn
  | notIn
  | differs
  | above
  | atLeast
  | below
  | atMost
  | contains
  | startsWith
  | endsWith
  deriving Repr, DecidableEq

namespace Modifier

def ofName? : String → Option Modifier
  | "in" => some isIn
  | "nin" => some notIn
  | "!=" => some differs
  | ">" => some above
  | ">=" => some atLeast
  | "<" => some below
  | "<=" => some atMost
  | "contains" => some contains
  | "startsWith" => some startsWith
  | "endsWith" => some endsWith
  | _ => none

/-- The first text stands somewhere in the second. -/
def occursIn (part : List Char) : List Char → Bool
  | [] => part.isEmpty
  | c :: rest => part.isPrefixOf (c :: rest) || occursIn part rest

def onTexts (test : List Char → List Char → Bool) : Json → Json → Bool
  | .str operand, .str actual => test operand.toList actual.toList
  | _, _ => false

/-- A list operand that is no list holds nothing. -/
def holds (modifier : Modifier) (actual operand : Json) : Bool :=
  match modifier with
  | isIn => (operand.toArray?.getD []).contains actual
  | notIn => !(operand.toArray?.getD []).contains actual
  | differs => actual != operand
  | above => actual.compare operand == .gt
  | atLeast => actual.compare operand != .lt
  | below => actual.compare operand == .lt
  | atMost => actual.compare operand != .gt
  | contains => onTexts occursIn operand actual
  | startsWith => onTexts List.isPrefixOf operand actual
  | endsWith => onTexts List.isSuffixOf operand actual

end Modifier

namespace Filter

/-- A modifier that is not known never holds. -/
def modifierHolds (actual : Json) (name : String) (operand : Json) : Bool :=
  match Modifier.ofName? name with
  | some modifier => modifier.holds actual operand
  | none => false

def satisfies (actual constraint : Json) : Bool :=
  match constraint with
  | .obj modifiers => modifiers.entries.all (fun entry => modifierHolds actual entry.1 entry.2)
  | operand => actual == operand

mutual

def matchesAll (row : Record) : List (String × Json) → Bool
  | [] => true
  | (key, constraint) :: rest => matchesKey row key constraint && matchesAll row rest

/-- Of what is given for `and` and `or`, only the dictionaries in a list count. -/
def matchesKey (row : Record) (key : String) : Json → Bool
  | .arr branches =>
      if key = "and" then everyBranch row branches
      else if key = "or" then someBranch row branches
      else satisfies (row.getD key) (.arr branches)
  | constraint =>
      if key = "and" then true
      else if key = "or" then false
      else satisfies (row.getD key) constraint

def everyBranch (row : Record) : List Json → Bool
  | [] => true
  | .obj ⟨fields⟩ :: rest => matchesAll row fields && everyBranch row rest
  | _ :: rest => everyBranch row rest

def someBranch (row : Record) : List Json → Bool
  | [] => false
  | .obj ⟨fields⟩ :: rest => matchesAll row fields || someBranch row rest
  | _ :: rest => someBranch row rest

end

/-- The row is one of those that the filter asks for. -/
def holdsFor (filter row : Record) : Bool := matchesAll row filter.entries

mutual

def neverAny : List (String × Json) → Bool
  | [] => false
  | (key, constraint) :: rest => neverKey key constraint || neverAny rest

def neverKey (key : String) : Json → Bool
  | .arr branches =>
      if key = "and" then neverSome branches
      else if key = "or" then neverEvery branches
      else false
  | .obj ⟨modifiers⟩ =>
      if key = "and" ∨ key = "or" then false
      else match Dict.lookup "in" modifiers with
        | some (.arr []) => true
        | _ => false
  | _ => false

def neverBranch : Json → Bool
  | .obj ⟨fields⟩ => neverAny fields
  | _ => false

def neverSome : List Json → Bool
  | [] => false
  | branch :: rest => neverBranch branch || neverSome rest

def neverEvery : List Json → Bool
  | [] => true
  | branch :: rest => neverBranch branch && neverEvery rest

end

/-- The filter is seen, without looking at any row, to ask for none. -/
def isNever (filter : Record) : Bool := neverAny filter.entries

def listModifiers : List String := ["in", "nin"]

/-- The operands of the list modifiers are lists. -/
def checkModifiers (name : String) (modifiers : Record) : Except CriteriaFault Unit :=
  match listModifiers.find? (fun modifier =>
      (modifiers.get? modifier).any (fun operand => operand.toArray?.isNone)) with
  | some modifier => .error (.modifierNotArray modifier name)
  | none => .ok ()

def checkColumn (model : Model) (name : String) (constraint : Json) : Except CriteriaFault Unit :=
  if !model.recognizes name then .error (.unrecognized name model.identity)
  else if model.isCollection name then .error (.toManyFilter name)
  else match constraint with
    | .obj modifiers => checkModifiers name modifiers
    | _ => .ok ()

mutual

def checkAll (model : Model) : List (String × Json) → Except CriteriaFault Unit
  | [] => .ok ()
  | (key, constraint) :: rest => do
      checkKey model key constraint
      checkAll model rest

def checkKey (model : Model) (key : String) : Json → Except CriteriaFault Unit
  | .arr branches =>
      if key = "and" ∨ key = "or" then checkBranches model key branches
      else checkColumn model key (.arr branches)
  | constraint =>
      if key = "and" ∨ key = "or" then .error (.branchesNotArray key)
      else checkColumn model key constraint

def checkBranches (model : Model) (key : String) : List Json → Except CriteriaFault Unit
  | [] => .ok ()
  | .obj ⟨fields⟩ :: rest => do
      checkAll model fields
      checkBranches model key rest
  | _ :: _ => .error (.branchNotDictionary key)

end

/-- Checks a filter in attribute names against a model. -/
def check (model : Model) (filter : Record) : Except CriteriaFault Unit :=
  checkAll model filter.entries

end Filter

end GraphRecords
