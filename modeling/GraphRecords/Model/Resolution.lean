import GraphRecords.Error
import GraphRecords.Model.Basic
import GraphRecords.Model.Definition

/-!
# Resolving definitions

A definition becomes a model once its parts are checked, in a fixed order, against each other
and against the names of the registered datastores.
-/

namespace GraphRecords

namespace Definition

def defaultPrimaryKey : String := "id"

def defaultTenant : String := "default"

/-- A text that is blank counts as absent. -/
def present (text : Option String) : Option String := text.filter (!allBlank ·)

structure Names where
  identity : String
  tableName : String

/-- Identity and table name each stand in for the other; identities are lower-cased. -/
def resolveNames (d : Definition) : Except OrmError Names :=
  match present d.identity, present d.tableName with
  | none, none => .error (.ofUsage .unnamedModel)
  | some identity, table => .ok ⟨lowercase identity, table.getD identity⟩
  | none, some table => .ok ⟨lowercase table, table⟩

def resolveDatastore (datastores : List String) (identity : String) (d : Definition) :
    Except OrmError String :=
  match present d.datastore with
  | some datastore => .ok datastore
  | none =>
      if datastores.contains defaultDatastore then .ok defaultDatastore
      else .error (.configuration (.noDefaultDatastore identity))

def resolveClass (identity : String) (d : Definition) : Except OrmError Bool :=
  match d.classType with
  | none => .ok false
  | some "Vertex" => .ok false
  | some "Edge" => .ok true
  | some name => .error (.configuration (.unknownClassType name identity))

def readString (fault : OrmError) : Json → Except OrmError String
  | .str text => .ok text
  | _ => .error fault

def resolveTenants (identity : String) (d : Definition) : Except OrmError (List String) :=
  let fault := OrmError.ofUsage (.tenantNotStrings identity)
  match d.tenantType with
  | none => .ok [defaultTenant]
  | some (.arr tags) => tags.mapM (readString fault)
  | some _ => .error fault

/-- One end of an edge: at least one collection name. -/
def resolveEnd (table key : String) (d : Definition) : Except OrmError (List String) :=
  let fault := OrmError.ofUsage (.edgeShape table)
  match d.edgeDefinition.bind (·.field? key) with
  | some (.arr []) => .error fault
  | some (.arr names) => names.mapM (readString fault)
  | _ => .error fault

def resolveRole (table : String) (isEdge : Bool) (d : Definition) : Except OrmError GraphRole :=
  if isEdge then do
    let sources ← resolveEnd table "from" d
    let targets ← resolveEnd table "to" d
    .ok (.edge sources targets)
  else .ok .vertex

def resolveAttribute (identity : String) (entry : String × Json) :
    Except OrmError (String × Attribute) :=
  match Attribute.parse entry.1 entry.2 with
  | .ok a => .ok (entry.1, a)
  | .error fault => .error (.ofUsage (.attributeDefinition identity entry.1 fault))

def resolveAttributes (identity : String) (d : Definition) : Except OrmError (Dict Attribute) := do
  let entries ← d.attributes.entries.mapM (resolveAttribute identity)
  .ok ⟨entries⟩

def resolveIndex (table : String) (known : List String) (raw : Json) : Except OrmError Index :=
  match Index.parse known raw with
  | .ok index => .ok index
  | .error fault => .error (.ofUsage (.index table fault))

/-- Indexes that are not an array are ignored. -/
def resolveIndexes (table : String) (role : GraphRole) (attributes : Dict Attribute)
    (d : Definition) : Except OrmError (List Index) :=
  let known := (if role.isEdge then edgeAttributes else []) ++ attributes.keys
  match d.indexes with
  | some (.arr entries) => entries.mapM (resolveIndex table known)
  | _ => .ok []

def checkDatastore (datastores : List String) (identity datastore : String) :
    Except OrmError Unit :=
  if datastores.contains datastore then .ok ()
  else if datastore = defaultDatastore then
    .error (.configuration (.unknownDefaultDatastore identity))
  else .error (.configuration (.unknownDatastore datastore identity))

/-- The model that a definition stands for, given the registered datastores. -/
def resolve (datastores : List String) (d : Definition) : Except OrmError Model := do
  let names ← resolveNames d
  let datastore ← resolveDatastore datastores names.identity d
  let isEdge ← resolveClass names.identity d
  let tenants ← resolveTenants names.identity d
  let role ← resolveRole names.tableName isEdge d
  let attributes ← resolveAttributes names.identity d
  let indexes ← resolveIndexes names.tableName role attributes d
  checkDatastore datastores names.identity datastore
  .ok {
    identity := names.identity, tableName := names.tableName, datastore, role, tenants, indexes,
    attributes, primaryKey := (present d.primaryKey).getD defaultPrimaryKey,
    bindings := d.bindings }

end Definition

end GraphRecords
