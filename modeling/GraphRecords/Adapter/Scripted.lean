import GraphRecords.Adapter.Basic

/-!
# Scripted adapters

Any adapter can be given answers beforehand. It gives them one by one while they last, without
looking at the query, and answers itself after that.
-/

namespace GraphRecords

structure Scripted (σ : Type) where
  answers : List (Except AdapterError Answer) := []
  state : σ

/-- The adapter under another identity, without some methods, and with answers given to it. -/
def Adapter.scripted {σ : Type} (adapter : Adapter σ) (identity : String)
    (unsupported : List Method) : Adapter (Scripted σ) where
  identity := identity
  supports := fun method => adapter.supports method && !unsupported.contains method
  maxConcurrency := adapter.maxConcurrency
  execute := fun datastore query scripted =>
    match scripted.answers with
    | answer :: answers => (answer, { scripted with answers })
    | [] =>
        let (result, state) := adapter.execute datastore query scripted.state
        (result, { scripted with state })

end GraphRecords
