import GraphRecords.Model.Columns
import GraphRecords.Model.Index

/-!
# Models

A model as calls see it: its attributes, its place in the graph and the datastore it is bound to.
-/

namespace GraphRecords

/-- The attributes that every edge has, declared or not. -/
def edgeAttributes : List String := ["_from", "_to"]

def defaultDatastore : String := "default"

/-- The part that a collection plays in the graph. -/
inductive GraphRole where
  | vertex
  | edge (sources targets : List String)
  deriving Repr, DecidableEq, Inhabited

def GraphRole.isEdge : GraphRole → Bool
  | vertex => false
  | edge _ _ => true

structure Model where
  identity : String
  tableName : String
  datastore : String
  role : GraphRole
  tenants : List String
  indexes : List Index
  attributes : Dict Attribute
  primaryKey : String
  bindings : Option Record
  deriving Repr

namespace Model

def columns (model : Model) : Columns := .ofAttributes model.attributes.values

def attribute? (model : Model) (name : String) : Option Attribute := model.attributes.get? name

/-- The model is linked into every datastore. -/
def usesDefaultDatastore (model : Model) : Bool := model.datastore == defaultDatastore

def primaryKeyColumn (model : Model) : String := model.columns.column model.primaryKey

/-- The to-many associations, by name. -/
def collections (model : Model) : List Attribute := model.attributes.values.filter (·.isCollection)

def isCollection (model : Model) (name : String) : Bool :=
  (model.attribute? name).any (·.isCollection)

/-- The name may stand in records and criteria. -/
def recognizes (model : Model) (name : String) : Bool :=
  model.attributes.contains name || name == model.primaryKey ||
    (model.role.isEdge && edgeAttributes.contains name)

end Model

end GraphRecords
