import GraphRecords.Adapter.Basic

/-!
# Delivery

A physical query is handed to the adapter of its datastore. Members of to-many associations are
stored by one further query for each record that has any. Errors of the adapter are put in terms
of the model and attributed to the call.
-/

namespace GraphRecords

/-- What an adapter error means to the caller of a model. -/
def translateError (model : Model) (context : CallContext) (owner : String) (error : AdapterError) :
    OrmError :=
  let failure := match error.footprint with
    | some (.notUnique columns) =>
        AdapterFailure.notUnique (columns.map model.columns.attributeName)
    | _ => .catchall
  .adapter failure owner error.message error context

/-- Where a query goes and on whose behalf. -/
structure Delivery (σ : Type) where
  adapter : Adapter σ
  datastore : Datastore
  model : Model
  context : CallContext

namespace Delivery

variable {σ : Type}

def ensureSupported (d : Delivery σ) (method : Method) : Except OrmError Unit :=
  if d.adapter.supports method then .ok ()
  else .error (.configuration (.unsupportedMethod d.adapter.identity method))

/-- The query itself is supported and, if there are members to store, so is storing them. -/
def check (d : Delivery σ) (query : PhysicalQuery) : Except OrmError Unit := do
  d.ensureSupported query.method
  if query.hasResets then d.ensureSupported .replaceCollection else .ok ()

def fault (d : Delivery σ) (error : AdapterError) : OrmError :=
  translateError d.model d.context d.adapter.identity error

def execute (d : Delivery σ) (query : PhysicalQuery) (state : σ) : Except OrmError Answer × σ :=
  let (result, state) := d.adapter.execute d.datastore query state
  (result.mapError d.fault, state)

/-- The stored records in an answer. -/
def persisted : Answer → List Record
  | some (.obj record) => [record]
  | some (.arr records) => records.filterMap Json.toObject?
  | _ => []

/-- The query that stores the members of one record. -/
def replaceQuery (d : Delivery σ) (query : PhysicalQuery) (key : Json) (reset : CollectionReset) :
    PhysicalQuery where
  method := .replaceCollection
  table := query.table
  identity := query.identity
  primaryKey := query.primaryKey
  criteria := some (Json.object [("where", Json.object [(query.primaryKey, key)])])
  valuesToSet := some ((reset.map Json.arr).mapKeys d.model.columns.column)

def wrongCount (expected found : Nat) : AdapterError where
  message := s!"Expected {expected} persisted record(s) to apply collection resets, " ++
    s!"adapter returned {found}"

def missingKey (column : String) : AdapterError where
  message := s!"Persisted record is missing its primary key `{column}`"

/-- Stores the members of the records in order, up to the first failure. -/
def storeMembers (d : Delivery σ) (query : PhysicalQuery) :
    List (Record × CollectionReset) → σ → Except OrmError Unit × σ
  | [], state => (.ok (), state)
  | (record, reset) :: rest, state =>
      if reset.isEmpty then d.storeMembers query rest state
      else match Store.keyOf? query.primaryKey record with
        | none => (.error (d.fault (missingKey query.primaryKey)), state)
        | some key =>
            match d.execute (d.replaceQuery query key reset) state with
            | (.ok _, state) => d.storeMembers query rest state
            | (.error error, state) => (.error error, state)

def applyResets (d : Delivery σ) (query : PhysicalQuery) (answer : Answer) (state : σ) :
    Except OrmError Unit × σ :=
  let records := persisted answer
  if !query.hasResets then (.ok (), state)
  else if records.length = query.resets.length then
    d.storeMembers query (records.zip query.resets) state
  else (.error (d.fault (wrongCount query.resets.length records.length)), state)

/-- Names the keys of a stored record by attribute. -/
def raiseItem (model : Model) : Json → Json
  | .obj record => .obj (model.columns.raiseRecord record)
  | value => value

def raise (model : Model) : Json → Json
  | .arr items => .arr (items.map (raiseItem model))
  | value => raiseItem model value

/-- What the caller gets of an answer: nothing from a create that did not ask for it. -/
def settle (model : Model) (query : PhysicalQuery) (answer : Answer) : Answer :=
  if query.method.createsRecords && !query.fetchRequested then none
  else answer.map (raise model)

def run (d : Delivery σ) (query : PhysicalQuery) (state : σ) : Except OrmError Answer × σ :=
  match d.check query with
  | .error error => (.error error, state)
  | .ok () =>
      match d.execute query state with
      | (.error error, state) => (.error error, state)
      | (.ok answer, state) =>
          match d.applyResets query answer state with
          | (.error error, state) => (.error error, state)
          | (.ok (), state) => (.ok (settle d.model query answer), state)

end Delivery

end GraphRecords
