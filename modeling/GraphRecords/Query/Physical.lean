import GraphRecords.Query.Logical

/-!
# Physical queries

A physical query is what an adapter is handed: column names throughout, and the members of
to-many associations split off the records, to be stored once the records are.
-/

namespace GraphRecords

/-- The members that one record gives for its to-many associations, by attribute. -/
abbrev CollectionReset := Dict (List Json)

/-- What an adapter answers to a query that succeeds, if anything. -/
abbrev Answer := Option Json

structure PhysicalQuery where
  method : Method
  table : String
  identity : String
  /-- The column of the primary key. -/
  primaryKey : String
  newRecords : List Record := []
  criteria : Option Json := none
  valuesToSet : Option Record := none
  /-- The metadata in force, where `fetch` may have been turned on. -/
  callMeta : Meta := {}
  /-- The caller's own `fetch`. -/
  fetchRequested : Bool := false
  /-- One for each new record, in order. -/
  resets : List CollectionReset := []
  deriving Repr

namespace PhysicalQuery

/-- Some record gives members for a to-many association. -/
def hasResets (query : PhysicalQuery) : Bool := query.resets.any (!·.isEmpty)

/-- A record without its to-many values, and those that are not empty. -/
structure Split where
  record : Record
  reset : CollectionReset

/-- Takes one to-many association out of a record. -/
def splitOne (model : Model) (split : Split) (a : Attribute) : Except RecordFault Split :=
  let record := split.record.erase a.name
  match split.record.get? a.name with
  | none => .ok { split with record }
  | some .null => .ok { split with record }
  | some (.arr []) => .ok { split with record }
  | some (.arr members) => .ok ⟨record, split.reset.insert a.name members⟩
  | some value => .error (.membersNotArray a.name model.identity value)

def splitRecord (model : Model) (record : Record) : Except RecordFault Split :=
  model.collections.foldlM (splitOne model) ⟨record, .empty⟩

/-- Lowers a logical query. `fetch` is turned on where members have to be stored, because that
takes the keys of the stored records. -/
def ofLogical (model : Model) (query : LogicalQuery) : Except OrmError PhysicalQuery := do
  let splits ← (query.newRecords.mapM (splitRecord model)).mapError (fun fault =>
    OrmError.ofUsage (.newRecords fault))
  let columns := model.columns
  let resets := splits.map (·.reset)
  .ok {
    method := query.method, table := model.tableName, identity := model.identity,
    primaryKey := model.primaryKeyColumn,
    newRecords := splits.map (fun split => columns.lowerRecord split.record),
    criteria := query.criteria.map (Criteria.lower columns),
    valuesToSet := query.valuesToSet.map columns.lowerRecord,
    callMeta := if resets.any (!·.isEmpty) then query.callMeta.withFetch else query.callMeta,
    fetchRequested := query.callMeta.fetch,
    resets }

/-- Lowers a query for the model of that identity. -/
def compile (schema : Schema) (identity : String) (query : LogicalQuery) :
    Except OrmError PhysicalQuery :=
  match schema.get? identity with
  | some model => ofLogical model query
  | none => .error (.configuration (.unknownQueryModel identity))

end PhysicalQuery

end GraphRecords
