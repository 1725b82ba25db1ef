import GraphRecords.Datastore
import GraphRecords.Store.Execute

/-!
# Adapters

An adapter carries out physical queries. What it changes is a state that is handed through, so
that several adapters can share one.
-/

namespace GraphRecords

structure Adapter (σ : Type) where
  identity : String
  supports : Method → Bool
  /-- A bound of its own on the hooks in flight. -/
  maxConcurrency : Option Nat
  execute : Datastore → PhysicalQuery → σ → Except AdapterError Answer × σ

namespace Adapter

variable {σ ω : Type}

/-- The adapter on a part of a larger state. -/
def onPart (adapter : Adapter σ) (get : ω → σ) (set : σ → ω → ω) : Adapter ω where
  identity := adapter.identity
  supports := adapter.supports
  maxConcurrency := adapter.maxConcurrency
  execute := fun datastore query state =>
    let (result, part) := adapter.execute datastore query (get state)
    (result, set part state)

/-- The adapter that keeps its records in a store. -/
def memory (sort : RowSort) (unique : List (String × String)) (maxConcurrency : Option Nat) :
    Adapter Store where
  identity := "memory"
  supports := fun _ => true
  maxConcurrency := maxConcurrency
  execute := fun datastore query store => Store.execute sort unique datastore.name query store

end Adapter

end GraphRecords
