import GraphRecords.Adapter.Basic

/-!
# Recording adapters

Any adapter can be made to keep the queries that it receives.
-/

namespace GraphRecords

structure Recorded (σ : Type) where
  /-- The queries received, in order, each with the name of its datastore. -/
  received : List (String × PhysicalQuery) := []
  state : σ

/-- The adapter with a record of what it receives; its answers stay the same. -/
def Adapter.recorded {σ : Type} (adapter : Adapter σ) : Adapter (Recorded σ) where
  identity := adapter.identity
  supports := adapter.supports
  maxConcurrency := adapter.maxConcurrency
  execute := fun datastore query recorded =>
    let (result, state) := adapter.execute datastore query recorded.state
    (result, ⟨recorded.received ++ [(datastore.name, query)], state⟩)

end GraphRecords
