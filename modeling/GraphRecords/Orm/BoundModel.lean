import GraphRecords.Adapter.Delivery
import GraphRecords.Hook.Before

/-!
# Bound models

A model bound to its datastore, on which calls are made. A call is normalized, goes through the
hook of its method, is lowered and delivered; it stops at the first error, or where there is
nothing to do.
-/

namespace GraphRecords

structure BoundModel (σ : Type) where
  model : Model
  datastore : Datastore
  adapter : Adapter σ
  schema : Schema
  callbacks : Callbacks
  settings : Settings

/-- How a call ended. -/
structure Settled (σ : Type) where
  result : Except OrmError Answer
  hooks : HookReport
  state : σ

namespace BoundModel

variable {σ : Type}

def rules (m : BoundModel σ) (now : Instant) : RecordRules where
  model := m.model
  schema := m.schema
  strict := m.settings.strictAttributes
  now := now

/-- The bound of the adapter, or else the one of the settings. -/
def hookBound (m : BoundModel σ) : Nat :=
  m.adapter.maxConcurrency.getD m.settings.hookConcurrency

def context (m : BoundModel σ) (method : Method) (requestId : Nat) (now : Instant) :
    CallContext where
  requestId := requestId
  method := method
  identity := m.model.identity
  datastore := m.datastore.name
  madeAt := now

def delivery (m : BoundModel σ) (context : CallContext) : Delivery σ where
  adapter := m.adapter
  datastore := m.datastore
  model := m.model
  context := context

/-- Lowers a query that has been through its hooks, and delivers it. -/
def finish (m : BoundModel σ) (context : CallContext) (query : LogicalQuery) (state : σ) :
    Except OrmError Answer × σ :=
  match PhysicalQuery.compile m.schema m.model.identity query with
  | .error error => (.error error, state)
  | .ok physical => (m.delivery context).run physical state

/-- Runs one call. Every error that takes a context has the one of this call. -/
def run (m : BoundModel σ) (method : Method) (request : Request) (context : CallContext)
    (state : σ) : Settled σ :=
  match LogicalQuery.normalize (m.rules context.madeAt) method request with
  | .error error => ⟨.error (error.withContext context), {}, state⟩
  | .ok (.noop _ result) => ⟨.ok result, {}, state⟩
  | .ok (.ready query) =>
      match query.runBefore m.callbacks m.hookBound with
      | (.error error, hooks) => ⟨.error (error.withContext context), hooks, state⟩
      | (.ok query, hooks) =>
          let (result, state) := m.finish context query state
          ⟨result.mapError (·.withContext context), hooks, state⟩

/-- A call that is to report to a callback, made where nothing can run it. -/
def runWithoutRuntime (context : CallContext) (state : σ) : Settled σ :=
  ⟨.error (.configuration (.noRuntime context)), {}, state⟩

end BoundModel

end GraphRecords
