import GraphRecords.Fault

/-!
# Call metadata

Flags of one call. Keys without a meaning here are handed on to the adapter.
-/

namespace GraphRecords

structure Meta where
  fetch : Bool := false
  skipHooks : Bool := false
  extra : Record := .empty
  deriving Repr, Inhabited

namespace Meta

def fetchKey : String := "fetch"

def skipHooksKey : String := "skipAllLifecycleCallbacks"

/-- Keys whose values are flags, in the order in which they are checked. -/
def flagKeys : List String :=
  [fetchKey, skipHooksKey, "cascade", "decrypt", "skipRecordVerification"]

def checkFlag (fields : Record) (key : String) : Except MetaFault Unit :=
  match fields.get? key with
  | none => .ok ()
  | some (.bool _) => .ok ()
  | some value => .error (.notFlag key value)

def isOn (fields : Record) (key : String) : Bool :=
  ((fields.get? key).bind Json.toBool?).getD false

def ofFields (fields : Record) : Except MetaFault Meta := do
  flagKeys.forM (checkFlag fields)
  .ok {
    fetch := isOn fields fetchKey, skipHooks := isOn fields skipHooksKey,
    extra := (fields.erase fetchKey).erase skipHooksKey }

/-- Reads the metadata of a call; null counts as absent. -/
def ofJson : Option Json → Except MetaFault Meta
  | none => .ok {}
  | some .null => .ok {}
  | some (.obj fields) => ofFields fields
  | some value => .error (.notDictionary value)

def withFetch (callMeta : Meta) : Meta := { callMeta with fetch := true }

/-- The flags and every other key at one level. -/
def toJson (callMeta : Meta) : Json :=
  .obj ((callMeta.extra.insert fetchKey (.bool callMeta.fetch)).insert
    skipHooksKey (.bool callMeta.skipHooks))

end Meta

end GraphRecords
