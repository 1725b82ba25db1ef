import GraphRecords.Fault
import GraphRecords.Text.Lowercase

/-!
# Attributes

An attribute is read from a dictionary that may only have recognized properties. It is plain,
with or without a value type, or an association with records of another model.
-/

namespace GraphRecords

inductive Association where
  | model (target : String)
  | collection (target : String) (via through : Option String) (dominant : Bool)
  deriving Repr, DecidableEq

def Association.target : Association → String
  | model target => target
  | collection target _ _ _ => target

/-- The model whose records join the two ends of a to-many association. -/
def Association.through : Association → Option String
  | model _ => none
  | collection _ _ through _ => through

structure Attribute where
  name : String
  valueType : Option ValueType
  defaultValue : Option Json
  required : Bool
  allowNull : Bool
  autoCreatedAt : Bool
  autoUpdatedAt : Bool
  association : Option Association
  columnName : Option String
  deriving Repr

namespace Attribute

/-- The column that stores the attribute. -/
def column (a : Attribute) : String := a.columnName.getD a.name

/-- The attribute is a to-many association. -/
def isCollection (a : Attribute) : Bool :=
  match a.association with
  | some (.collection ..) => true
  | _ => false

def isSingular (a : Attribute) : Bool :=
  match a.association with
  | some (.model _) => true
  | _ => false

def acceptsNull (a : Attribute) : Bool :=
  a.allowNull || a.isSingular || a.valueType.any (·.acceptsNull)

def isTimestamp (a : Attribute) : Bool := a.autoCreatedAt || a.autoUpdatedAt

def textProperty (fields : Record) (property : String) :
    Except AttributeFault (Option String) :=
  match fields.get? property with
  | none => .ok none
  | some (.str text) => .ok (some text)
  | some _ => .error (.notString property)

/-- A flag is off where it is left out. -/
def flagProperty (fields : Record) (property : String) : Except AttributeFault Bool :=
  match fields.get? property with
  | none => .ok false
  | some (.bool value) => .ok value
  | some _ => .error (.notFlag property)

def checkProperties (fields : Record) : Except AttributeFault Unit :=
  match fields.keys.filter (fun key => !isAttributeProperty key) with
  | [] => .ok ()
  | unknown => .error (.unknownProperties unknown)

def readType (fields : Record) : Except AttributeFault (Option ValueType) :=
  match fields.get? "type" with
  | none => .ok none
  | some (.str name) =>
      match ValueType.ofName? name with
      | some type => .ok (some type)
      | none => .error (.unknownType name)
  | some _ => .error .typeNotString

/-- Model names are lower-cased. The properties that only concern to-many associations are not
looked at for other attributes. -/
def readAssociation (fields : Record) : Except AttributeFault (Option Association) := do
  let model ← textProperty fields "model"
  let collection ← textProperty fields "collection"
  match model, collection with
  | some _, some _ => .error .twoTargets
  | some target, none => .ok (some (.model (lowercase target)))
  | none, some target =>
      let via ← textProperty fields "via"
      let through ← textProperty fields "through"
      let dominant ← flagProperty fields "dominant"
      .ok (some (.collection (lowercase target) via (through.map lowercase) dominant))
  | none, none => .ok none

def ofFields (name : String) (fields : Record) : Except AttributeFault Attribute := do
  checkProperties fields
  let valueType ← readType fields
  let association ← readAssociation fields
  if association.isSome && valueType.isSome then .error .typedAssociation
  else
    let required ← flagProperty fields "required"
    let allowNull ← flagProperty fields "allowNull"
    let autoCreatedAt ← flagProperty fields "autoCreatedAt"
    let autoUpdatedAt ← flagProperty fields "autoUpdatedAt"
    let columnName ← textProperty fields "columnName"
    .ok {
      name, valueType, defaultValue := fields.get? "defaultsTo", required, allowNull,
      autoCreatedAt, autoUpdatedAt, association, columnName }

/-- Reads the definition of the attribute `name`. -/
def parse (name : String) : Json → Except AttributeFault Attribute
  | .obj fields => ofFields name fields
  | _ => .error .notDictionary

end Attribute

end GraphRecords
