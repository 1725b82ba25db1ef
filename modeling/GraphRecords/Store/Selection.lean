import GraphRecords.Query.Physical
import GraphRecords.Store.RowSort

/-!
# Reading rows

Which rows the criteria of a physical query select, in which order, and which of their columns
are shown. Criteria of any shape are taken; what has no meaning is passed over.
-/

namespace GraphRecords.PhysicalQuery

def clause? (query : PhysicalQuery) (name : String) : Option Json :=
  query.criteria.bind (·.field? name)

def filter (query : PhysicalQuery) : Record :=
  ((query.clause? "where").bind Json.toObject?).getD .empty

def selects (query : PhysicalQuery) (row : Record) : Bool := Filter.holdsFor query.filter row

def natural? (query : PhysicalQuery) (clause : String) : Option Nat :=
  (query.clause? clause).bind Json.toNat?

/-- A column to sort by, and whether downwards. -/
structure ColumnOrder where
  column : String
  descending : Bool
  deriving Repr, DecidableEq

def isDescending (direction : Json) : Bool := direction == .str "DESC"

def orders (query : PhysicalQuery) : List ColumnOrder :=
  ((((query.clause? "sort").bind Json.toArray?).getD []).filterMap Json.toObject?).flatMap
    (fun fields => fields.entries.map (fun entry => ⟨entry.1, isDescending entry.2⟩))

def ColumnOrder.compare (order : ColumnOrder) (a b : Record) : Ordering :=
  let ordering := (a.getD order.column).compare (b.getD order.column)
  if order.descending then ordering.swap else ordering

/-- Lexicographic: the first column that tells two rows apart decides. -/
def compareRows (a b : Record) : List ColumnOrder → Ordering
  | [] => .eq
  | order :: rest => (order.compare a b).then (compareRows a b rest)

/-- How rows compare by the columns of the query. -/
def rowOrder (query : PhysicalQuery) : RowOrder := fun a b => compareRows a b query.orders

def sortRows (sort : RowSort) (query : PhysicalQuery) (rows : List Record) : List Record :=
  sort.sort query.rowOrder rows

/-- The texts in a clause that is a list. -/
def names? (query : PhysicalQuery) (clause : String) : Option (List String) :=
  ((query.clause? clause).bind Json.toArray?).map (·.filterMap Json.toString?)

/-- The columns of `select`, unless a star among them stands for all. -/
def selected? (query : PhysicalQuery) : Option (List String) :=
  (query.names? "select").filter (!·.contains "*")

/-- The shown part of a row. A selection always shows the primary key. -/
def project (query : PhysicalQuery) (row : Record) : Record :=
  match query.selected?, query.names? "omit" with
  | some names, _ =>
      row.filter (fun column _ => column == query.primaryKey || names.contains column)
  | none, some names => row.filter (fun column _ => !names.contains column)
  | none, none => row

/-- One page of rows; there is no bound where the query has no limit. -/
def page (query : PhysicalQuery) (rows : List Record) : List Record :=
  let rest := rows.drop ((query.natural? "skip").getD 0)
  match query.natural? "limit" with
  | some limit => rest.take limit
  | none => rest

end GraphRecords.PhysicalQuery
