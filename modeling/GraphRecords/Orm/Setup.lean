import GraphRecords.Orm.BoundModel

/-!
# Setup

Datastores, definitions and hooks are collected first. Starting resolves every definition, checks
the associations between them, links models with datastores and binds the models.
-/

namespace GraphRecords

variable {σ : Type}

structure Registration (σ : Type) where
  adapter : Adapter σ
  settings : Record := .empty

/-- A datastore with the adapter that serves it. -/
structure Connection (σ : Type) where
  datastore : Datastore
  adapter : Adapter σ

structure Setup (σ : Type) where
  settings : Settings := {}
  datastores : Dict (Registration σ) := .empty
  definitions : List Definition := []
  hooks : Dict Callbacks := .empty

/-- The models that calls can be made on, with all that they are linked to. -/
structure Orm (σ : Type) where
  settings : Settings
  schema : Schema
  connections : Dict (Connection σ)
  index : CollectionIndex
  models : Dict (BoundModel σ)

namespace Setup

/-- Registers a datastore in place of any other of its name. -/
def addDatastore (setup : Setup σ) (name : String) (registration : Registration σ) : Setup σ :=
  { setup with datastores := setup.datastores.insert name registration }

def addModel (setup : Setup σ) (definition : Definition) : Setup σ :=
  { setup with definitions := setup.definitions ++ [definition] }

/-- Registers a hook for a model, in place of any other of its kind. -/
def addHook (setup : Setup σ) (identity : String) (kind : HookKind) (hook : Hook) : Setup σ :=
  let key := lowercase identity
  let callbacks := ((setup.hooks.get? key).getD {}).register kind hook
  { setup with hooks := setup.hooks.insert key callbacks }

def resolveSchema (setup : Setup σ) : Except OrmError Schema := do
  let schema ← Schema.ofDefinitions setup.datastores.keys setup.definitions
  schema.checkAssociations
  .ok schema

def checkHooks (setup : Setup σ) (schema : Schema) : Except OrmError Unit :=
  match setup.hooks.keys.find? (fun identity => !schema.contains identity) with
  | some identity => .error (.configuration (.unknownHookModel identity))
  | none => .ok ()

def connect (index : CollectionIndex) (name : String) (registration : Registration σ) :
    Connection σ where
  datastore := {
    name, settings := registration.settings, collections := (index.collections? name).getD [] }
  adapter := registration.adapter

/-- The registered datastores, each with the models linked into it. -/
def connectAll (datastores : Dict (Registration σ)) (index : CollectionIndex) :
    Dict (Connection σ) :=
  ⟨datastores.entries.map (fun entry => (entry.1, connect index entry.1 entry.2))⟩

def bindModel (setup : Setup σ) (schema : Schema) (connections : Dict (Connection σ))
    (entry : String × Model) : Except OrmError (String × BoundModel σ) :=
  let model := entry.2
  match connections.get? model.datastore with
  | none => .error (.configuration (.datastoreLost model.datastore model.identity))
  | some connection => .ok (model.identity, {
      model, schema, datastore := connection.datastore, adapter := connection.adapter,
      callbacks := (setup.hooks.get? model.identity).getD {}, settings := setup.settings })

def start (setup : Setup σ) : Except OrmError (Orm σ) := do
  setup.settings.validate.mapError (fun error => OrmError.configuration (.settings error))
  let schema ← setup.resolveSchema
  setup.checkHooks schema
  let index := CollectionIndex.link setup.datastores.keys schema.models.values
  let connections := connectAll setup.datastores index
  let models ← schema.models.entries.mapM (setup.bindModel schema connections)
  .ok { settings := setup.settings, schema, connections, index, models := ⟨models⟩ }

end Setup

namespace Orm

/-- The bound model of an identity in letters of any case. -/
def model (orm : Orm σ) (identity : String) : Except OrmError (BoundModel σ) :=
  match orm.models.get? (lowercase identity) with
  | some m => .ok m
  | none => .error (.configuration (.unknownModel identity))

end Orm

end GraphRecords
