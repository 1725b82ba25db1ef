import GraphRecords.Hook.Basic

/-!
# Scripted hooks

Hooks declared as a list of actions on the record instead of as a function.
-/

namespace GraphRecords

inductive HookEffect where
  | set (key : String) (value : Json)
  | remove (key : String)
  | reject (message : String) (hint : Option String)
  | fail (message : String)
  | suspend
  deriving Repr

structure HookAction where
  /-- The record has to hold this very value under this key for the action to apply. -/
  guard : Option (String × Json) := none
  effect : HookEffect
  deriving Repr

namespace HookAction

def applies (action : HookAction) (record : Record) : Bool :=
  match action.guard with
  | none => true
  | some (key, value) => (record.get? key).any (· == value)

/-- Goes through the actions in order; `suspended` tells whether one has suspended already. -/
def perform (suspended : Bool) (record : Record) : List HookAction → HookCall
  | [] => ⟨suspended, .ok record⟩
  | action :: rest =>
      if action.applies record then
        match action.effect with
        | .set key value => perform suspended (record.insert key value) rest
        | .remove key => perform suspended (record.erase key) rest
        | .reject message hint => ⟨suspended, .error (.rejected message hint)⟩
        | .fail message => ⟨suspended, .error (.failed message)⟩
        | .suspend => perform true record rest
      else perform suspended record rest

end HookAction

def Hook.ofActions (actions : List HookAction) : Hook :=
  fun record => HookAction.perform false record actions

end GraphRecords
