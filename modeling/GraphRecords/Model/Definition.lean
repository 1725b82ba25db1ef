import GraphRecords.Json.Basic

/-!
# Model definitions

A model as its author declares it. The parts whose shape is checked later are kept as JSON.
-/

namespace GraphRecords

structure Definition where
  identity : Option String := none
  tableName : Option String := none
  datastore : Option String := none
  classType : Option String := none
  tenantType : Option Json := none
  edgeDefinition : Option Json := none
  indexes : Option Json := none
  primaryKey : Option String := none
  attributes : Record := .empty
  bindings : Option Record := none
  deriving Repr, Inhabited

namespace Definition

/-- An optional text; null counts as absent. -/
def readText (fields : Record) (key : String) : Option (Option String) :=
  match fields.get? key with
  | none => some none
  | some .null => some none
  | some (.str text) => some (some text)
  | some _ => none

/-- An optional value of any shape; null counts as absent. -/
def readAny (fields : Record) (key : String) : Option Json :=
  (fields.get? key).filter (!·.isNull)

def readAttributes (fields : Record) : Option Record :=
  match fields.get? "attributes" with
  | none => some .empty
  | some (.obj attributes) => some attributes
  | some _ => none

def readBindings (fields : Record) : Option (Option Record) :=
  match fields.get? "let" with
  | none => some none
  | some .null => some none
  | some (.obj bindings) => some (some bindings)
  | some _ => none

/-- Reads a definition; keys that it does not know are passed over. -/
def ofJson? (value : Json) : Option Definition := do
  let fields ← value.toObject?
  let identity ← readText fields "identity"
  let tableName ← readText fields "tableName"
  let datastore ← readText fields "datastore"
  let classType ← readText fields "classType"
  let primaryKey ← readText fields "primaryKey"
  let attributes ← readAttributes fields
  let bindings ← readBindings fields
  return {
    identity, tableName, datastore, classType, primaryKey, attributes, bindings,
    tenantType := readAny fields "tenantType",
    edgeDefinition := readAny fields "edgeDefinition",
    indexes := readAny fields "indexes" }

/-- The dictionary of a definition: absent parts are left out, the attributes never. -/
def toJson (d : Definition) : Json :=
  .obj (Dict.empty
    |>.insert? "identity" (d.identity.map .str)
    |>.insert? "tableName" (d.tableName.map .str)
    |>.insert? "datastore" (d.datastore.map .str)
    |>.insert? "classType" (d.classType.map .str)
    |>.insert? "tenantType" d.tenantType
    |>.insert? "edgeDefinition" d.edgeDefinition
    |>.insert? "indexes" d.indexes
    |>.insert? "primaryKey" (d.primaryKey.map .str)
    |>.insert "attributes" (.obj d.attributes)
    |>.insert? "let" (d.bindings.map .obj))

end Definition

end GraphRecords
