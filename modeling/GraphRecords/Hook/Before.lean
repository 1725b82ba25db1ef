import GraphRecords.Hook.Fanout
import GraphRecords.Query.Logical

/-!
# Hooks before a query

The hook that belongs to the method of a query runs on its new records, on its values to set or
on its filter.
-/

namespace GraphRecords.LogicalQuery

def lifecycleFault (kind : HookKind) (source : HookError) : OrmError :=
  .lifecycle kind source none

def runBeforeCreate (hook : Hook) (bound : Nat) (query : LogicalQuery) :
    Except OrmError LogicalQuery × HookReport :=
  let fanout := Fanout.run hook bound query.newRecords
  match fanout.outcome with
  | .ok records => (.ok { query with newRecords := records }, fanout.report)
  | .error failure => (.error (lifecycleFault .beforeCreate failure), fanout.report)

def runBeforeUpdate (hook : Hook) (query : LogicalQuery) :
    Except OrmError LogicalQuery × HookReport :=
  match query.valuesToSet with
  | none => (.ok query, {})
  | some values =>
      match (hook values).result with
      | .ok values => (.ok { query with valuesToSet := some values }, ⟨1, 1⟩)
      | .error failure => (.error (lifecycleFault .beforeUpdate failure), ⟨1, 1⟩)

def runBeforeDestroy (hook : Hook) (query : LogicalQuery) :
    Except OrmError LogicalQuery × HookReport :=
  match query.criteria with
  | none => (.ok query, {})
  | some criteria =>
      match (hook criteria.filter).result with
      | .ok filter => (.ok { query with criteria := some { criteria with filter } }, ⟨1, 1⟩)
      | .error failure => (.error (lifecycleFault .beforeDestroy failure), ⟨1, 1⟩)

/-- The hook that a query is subject to, unless its metadata skips hooks. -/
def hook? (callbacks : Callbacks) (query : LogicalQuery) : Option (HookKind × Hook) :=
  if query.callMeta.skipHooks then none
  else query.method.beforeHook.bind (fun kind => (callbacks.get? kind).map (kind, ·))

def runBefore (callbacks : Callbacks) (bound : Nat) (query : LogicalQuery) :
    Except OrmError LogicalQuery × HookReport :=
  match query.hook? callbacks with
  | none => (.ok query, {})
  | some (.beforeCreate, hook) => runBeforeCreate hook bound query
  | some (.beforeUpdate, hook) => runBeforeUpdate hook query
  | some (.beforeDestroy, hook) => runBeforeDestroy hook query

end GraphRecords.LogicalQuery
