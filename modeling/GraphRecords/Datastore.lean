import GraphRecords.Model.Basic

/-!
# Datastores

A datastore as adapters see it, and the index that links models and datastores. A model of the
default datastore is linked into every datastore, any other only into its own.
-/

namespace GraphRecords

structure Datastore where
  name : String
  settings : Record := .empty
  /-- The identities of the models linked into it. -/
  collections : List String := []
  deriving Repr

/-- A set of names in order. -/
abbrev NameSet := Dict Unit

/-- Each of the two sides lists what the other links it with. -/
structure CollectionIndex where
  byDatastore : Dict NameSet
  byModel : Dict NameSet
  deriving Repr, DecidableEq

namespace CollectionIndex

def addName (relation : Dict NameSet) (key name : String) : Dict NameSet :=
  relation.insert key (((relation.get? key).getD .empty).insert name ())

def add (index : CollectionIndex) (datastore identity : String) : CollectionIndex where
  byDatastore := addName index.byDatastore datastore identity
  byModel := addName index.byModel identity datastore

/-- Every datastore has an entry, though it may have no models. -/
def ofDatastores (datastores : List String) : CollectionIndex where
  byDatastore := .ofList (datastores.map (·, .empty))
  byModel := .empty

/-- The datastores that a model is linked into. -/
def homes (datastores : List String) (model : Model) : List String :=
  if model.usesDefaultDatastore then datastores else [model.datastore]

def addModel (datastores : List String) (index : CollectionIndex) (model : Model) :
    CollectionIndex :=
  (homes datastores model).foldl (fun index name => index.add name model.identity) index

def link (datastores : List String) (models : List Model) : CollectionIndex :=
  models.foldl (addModel datastores) (ofDatastores datastores)

def collections? (index : CollectionIndex) (datastore : String) : Option (List String) :=
  (index.byDatastore.get? datastore).map Dict.keys

def datastores? (index : CollectionIndex) (identity : String) : Option (List String) :=
  (index.byModel.get? identity).map Dict.keys

end CollectionIndex

end GraphRecords
