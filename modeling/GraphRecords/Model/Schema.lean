import GraphRecords.Model.Resolution

/-!
# Schemas

All models, by identity.
-/

namespace GraphRecords

structure Schema where
  models : Dict Model
  deriving Repr

namespace Schema

def empty : Schema := ⟨.empty⟩

def get? (schema : Schema) (identity : String) : Option Model := schema.models.get? identity

def contains (schema : Schema) (identity : String) : Bool := schema.models.contains identity

/-- Adds a model whose identity is not taken. -/
def insert (schema : Schema) (model : Model) : Except OrmError Schema :=
  if schema.contains model.identity then
    .error (.ofUsage (.duplicateModel model.identity))
  else .ok ⟨schema.models.insert model.identity model⟩

/-- Resolves definitions one after another and adds each to the schema. -/
def addAll (datastores : List String) (schema : Schema) :
    List Definition → Except OrmError Schema
  | [] => .ok schema
  | definition :: rest => do
      let model ← definition.resolve datastores
      let schema ← schema.insert model
      addAll datastores schema rest

def ofDefinitions (datastores : List String) (definitions : List Definition) :
    Except OrmError Schema :=
  addAll datastores empty definitions

/-- The identities that an association refers to, its target first. -/
def references (association : Association) : List String :=
  association.target :: association.through.toList

/-- The first reference of an attribute to a model that is not in the schema. -/
def danglingReference? (schema : Schema) (a : Attribute) : Option String :=
  (a.association.elim [] references).find? (fun target => !schema.contains target)

def checkAttribute (schema : Schema) (model : Model) (a : Attribute) : Except OrmError Unit :=
  match schema.danglingReference? a with
  | some target => .error (.ofUsage (.unknownTarget a.name model.identity target))
  | none => .ok ()

/-- Every association refers to models of the schema. -/
def checkAssociations (schema : Schema) : Except OrmError Unit :=
  schema.models.values.forM (fun model =>
    model.attributes.values.forM (schema.checkAttribute model))

/-- The value can be a primary key of the model. A key of unknown type is a text or a number. -/
def isPrimaryKeyValue (schema : Schema) (identity : String) (value : Json) : Bool :=
  match (schema.get? identity).bind (fun model =>
      (model.attribute? model.primaryKey).bind (·.valueType)) with
  | some .number => value.isNumber
  | some .string => value.isString
  | _ => value.isString || value.isNumber

end Schema

end GraphRecords
