/-!
# Methods and hook kinds

The operations that a call can ask for and that an adapter is handed, and the callbacks that may
run before them.
-/

namespace GraphRecords

/-- Callbacks that run before records are created, updated or destroyed. -/
inductive HookKind where
  | beforeCreate
  | beforeUpdate
  | beforeDestroy
  deriving Repr, DecidableEq, Inhabited

namespace HookKind

def name : HookKind → String
  | beforeCreate => "beforeCreate"
  | beforeUpdate => "beforeUpdate"
  | beforeDestroy => "beforeDestroy"

def all : List HookKind := [beforeCreate, beforeUpdate, beforeDestroy]

def ofName? (name : String) : Option HookKind := all.find? (·.name = name)

theorem ofName?_name (kind : HookKind) : ofName? kind.name = some kind := by
  cases kind <;> rfl

end HookKind

/-- `replaceCollection` is never asked for by a caller: it stores the members of to-many
associations once the record that owns them is stored. -/
inductive Method where
  | find
  | findOne
  | count
  | create
  | createEach
  | normalizeEach
  | update
  | destroy
  | replaceCollection
  deriving Repr, DecidableEq, Inhabited

namespace Method

def name : Method → String
  | find => "find"
  | findOne => "findOne"
  | count => "count"
  | create => "create"
  | createEach => "createEach"
  | normalizeEach => "normalizeEach"
  | update => "update"
  | destroy => "destroy"
  | replaceCollection => "replaceCollection"

def all : List Method :=
  [find, findOne, count, create, createEach, normalizeEach, update, destroy, replaceCollection]

def ofName? (name : String) : Option Method := all.find? (·.name = name)

theorem ofName?_name (method : Method) : ofName? method.name = some method := by
  cases method <;> rfl

/-- The call stores new records. -/
def createsRecords : Method → Bool
  | create | createEach | normalizeEach => true
  | _ => false

/-- The call carries a list of new records. -/
def takesRecordBatch : Method → Bool
  | createEach | normalizeEach => true
  | _ => false

def takesCriteria : Method → Bool
  | find | findOne | count | update | destroy | replaceCollection => true
  | _ => false

def beforeHook : Method → Option HookKind
  | create | createEach | normalizeEach => some .beforeCreate
  | update => some .beforeUpdate
  | destroy => some .beforeDestroy
  | _ => none

end Method

end GraphRecords
