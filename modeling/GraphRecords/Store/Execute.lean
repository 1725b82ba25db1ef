import GraphRecords.Store.Basic
import GraphRecords.Store.Selection

/-!
# Executing queries on a store

Every method of a physical query as a step from a store to an answer and the next store. The
pairs in `unique` are tables and columns in which no two rows may hold equal values, and `sort` is
what a find puts its rows in order by.
-/

namespace GraphRecords

namespace Store

/-- Both rows hold the same value, not null, in the column. -/
def sharesValue (column : String) (row other : Record) : Bool :=
  match row.get? column with
  | none => false
  | some value => !value.isNull && (other.get? column).any (· == value)

/-- The columns of a table whose values are unique. -/
def uniqueColumns (unique : List (String × String)) (table : String) : List String :=
  (unique.filter (·.1 == table)).map Prod.snd

/-- A column whose uniqueness a row would break beside the others. -/
def clash? (columns : List String) (row : Record) (others : List Record) : Option String :=
  columns.find? (fun column => others.any (sharesValue column row))

def notUnique (column : String) : AdapterError where
  message := "Would violate uniqueness constraint: " ++
    s!"a record already exists with conflicting value for `{column}`"
  footprint := some (.notUnique [column])

/-- The key of a row, null not counting as one. -/
def keyOf? (primaryKey : String) (row : Record) : Option Json :=
  (row.get? primaryKey).filter (!·.isNull)

/-- Gives records their keys, one after another, each checked against the rows that exist and
those staged before it. The next key to generate has moved on also where a check fails; keys from
`2 ^ 64` on are taken not to be reached. -/
def stage (columns : List String) (primaryKey : String) (existing staged : List Record)
    (nextKey : Nat) : List Record → Except AdapterError (List Record) × Nat
  | [] => (.ok staged, nextKey)
  | record :: rest =>
      let hasKey := (keyOf? primaryKey record).isSome
      let row := if hasKey then record else record.insert primaryKey (Json.nat nextKey)
      let nextKey := if hasKey then nextKey else nextKey + 1
      match clash? columns row (existing ++ staged) with
      | some column => (.error (notUnique column), nextKey)
      | none => stage columns primaryKey existing (staged ++ [row]) nextKey rest

/-- The rows that a batch replaces give way before it is staged. -/
def withoutKeys (primaryKey : String) (batch rows : List Record) : List Record :=
  let incoming := batch.filterMap (keyOf? primaryKey)
  rows.filter (fun row => !(row.get? primaryKey).any (fun key => incoming.contains key))

def createdAnswer (query : PhysicalQuery) (staged : List Record) : Answer :=
  if !query.callMeta.fetch then none
  else if query.method = .create then staged.head?.map .obj
  else some (.arr (staged.map .obj))

/-- The rows that stay beside the new records of a query. -/
def kept (id : TableId) (query : PhysicalQuery) (store : Store) : List Record :=
  if query.method = .normalizeEach then
    withoutKeys query.primaryKey query.newRecords (store.rows id)
  else store.rows id

/-- The new records of a query with their keys, and the next key to generate. -/
def staged (unique : List (String × String)) (id : TableId) (query : PhysicalQuery)
    (store : Store) : Except AdapterError (List Record) × Nat :=
  stage (uniqueColumns unique id.table) query.primaryKey (store.kept id query) [] store.nextKey
    query.newRecords

def create (unique : List (String × String)) (id : TableId) (query : PhysicalQuery)
    (store : Store) : Except AdapterError Answer × Store :=
  let existing := store.kept id query
  match store.staged unique id query with
  | (.ok rows, nextKey) =>
      (.ok (createdAnswer query rows), { store.setRows id (existing ++ rows) with nextKey })
  | (.error error, nextKey) => (.error error, { store.setRows id existing with nextKey })

def matching (id : TableId) (query : PhysicalQuery) (store : Store) : List Record :=
  (store.rows id).filter query.selects

def find (sort : RowSort) (id : TableId) (query : PhysicalQuery) (store : Store) : Answer :=
  let rows := query.page (query.sortRows sort (store.matching id query))
  some (.arr (rows.map (fun row => .obj (query.project row))))

def severalFound (count : Nat) : AdapterError where
  message := s!"More than one matching record found for findOne ({count} matches)"

def findOne (id : TableId) (query : PhysicalQuery) (store : Store) :
    Except AdapterError Answer :=
  match store.matching id query with
  | [] => .ok none
  | [row] => .ok (some (.obj (query.project row)))
  | rows => .error (severalFound rows.length)

def count (id : TableId) (query : PhysicalQuery) (store : Store) : Answer :=
  some (Json.nat (store.matching id query).length)

def values (query : PhysicalQuery) : Record := query.valuesToSet.getD .empty

def updateRow (query : PhysicalQuery) (row : Record) : Record :=
  if query.selects row then row.override (values query) else row

/-- The first uniqueness broken by an updated row; the rows before it are in `earlier`. -/
def updateClash? (columns : List String) (query : PhysicalQuery) (earlier : List Record) :
    List Record → Option String
  | [] => none
  | row :: rest =>
      let next := updateRow query row
      let others := earlier ++ rest.map (updateRow query)
      match if query.selects row then clash? columns next others else none with
      | some column => some column
      | none => updateClash? columns query (earlier ++ [next]) rest

def fetched (query : PhysicalQuery) (rows : List Record) : Answer :=
  if query.callMeta.fetch then some (.arr (rows.map .obj)) else none

/-- All rows are updated, or none where that would break uniqueness. -/
def update (unique : List (String × String)) (id : TableId) (query : PhysicalQuery)
    (store : Store) : Except AdapterError Answer × Store :=
  let rows := store.rows id
  match updateClash? (uniqueColumns unique id.table) query [] rows with
  | some column => (.error (notUnique column), store)
  | none =>
      (.ok (fetched query ((rows.filter query.selects).map (updateRow query))),
        store.setRows id (rows.map (updateRow query)))

def destroy (id : TableId) (query : PhysicalQuery) (store : Store) : Answer × Store :=
  let rows := store.rows id
  (fetched query (rows.filter query.selects),
    store.setRows id (rows.filter (fun row => !query.selects row)))

/-- The keys of the rows whose members a query replaces. -/
def owners (id : TableId) (query : PhysicalQuery) (store : Store) : List Json :=
  (store.matching id query).filterMap (·.get? query.primaryKey)

def linkOwner (id : TableId) (values : Record) (store : Store) (owner : Json) : Store :=
  values.entries.foldl
    (fun store entry => store.setMembers (linkId id owner entry.1) (entry.2.toArray?.getD [])) store

def replaceCollection (id : TableId) (query : PhysicalQuery) (store : Store) : Store :=
  (store.owners id query).foldl (linkOwner id (values query)) store

/-- Answers a physical query addressed to a datastore. -/
def execute (sort : RowSort) (unique : List (String × String)) (datastore : String)
    (query : PhysicalQuery) (store : Store) : Except AdapterError Answer × Store :=
  let id : TableId := ⟨datastore, query.table⟩
  match query.method with
  | .create | .createEach | .normalizeEach => create unique id query store
  | .find => (.ok (find sort id query store), store)
  | .findOne => (findOne id query store, store)
  | .count => (.ok (count id query store), store)
  | .update => update unique id query store
  | .destroy =>
      let (answer, store) := destroy id query store
      (.ok answer, store)
  | .replaceCollection => (.ok none, replaceCollection id query store)

end Store

end GraphRecords
