import GraphRecords.Error

/-!
# Hooks

A hook is called with a record and either changes it or refuses it. A call may suspend before
it settles, which is when calls on several records overlap.
-/

namespace GraphRecords

/-- One call of a hook: whether it suspends, and what it settles with. -/
structure HookCall where
  suspends : Bool
  result : Except HookError Record

abbrev Hook := Record → HookCall

/-- The hooks of one model, one of each kind at most. -/
structure Callbacks where
  beforeCreate : Option Hook := none
  beforeUpdate : Option Hook := none
  beforeDestroy : Option Hook := none

namespace Callbacks

def get? (callbacks : Callbacks) : HookKind → Option Hook
  | .beforeCreate => callbacks.beforeCreate
  | .beforeUpdate => callbacks.beforeUpdate
  | .beforeDestroy => callbacks.beforeDestroy

/-- Registers a hook in place of any other of its kind. -/
def register (callbacks : Callbacks) (kind : HookKind) (hook : Hook) : Callbacks :=
  match kind with
  | .beforeCreate => { callbacks with beforeCreate := some hook }
  | .beforeUpdate => { callbacks with beforeUpdate := some hook }
  | .beforeDestroy => { callbacks with beforeDestroy := some hook }

def isEmpty (callbacks : Callbacks) : Bool :=
  callbacks.beforeCreate.isNone && callbacks.beforeUpdate.isNone && callbacks.beforeDestroy.isNone

theorem get?_register (callbacks : Callbacks) (kind other : HookKind) (hook : Hook) :
    (callbacks.register kind hook).get? other =
      if kind = other then some hook else callbacks.get? other := by
  cases kind <;> cases other <;> rfl

end Callbacks

end GraphRecords
