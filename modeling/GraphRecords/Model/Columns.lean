import GraphRecords.Model.Attribute

/-!
# Columns

The renaming between attribute names and the columns that adapters store them in. A name that no
attribute renames stands for itself in both directions.
-/

namespace GraphRecords

structure Columns where
  toColumn : Dict String
  toAttribute : Dict String
  deriving Repr, DecidableEq

namespace Columns

def empty : Columns := ⟨.empty, .empty⟩

def rename (columns : Columns) (a : Attribute) : Columns :=
  match a.columnName with
  | some column =>
      ⟨columns.toColumn.insert a.name column, columns.toAttribute.insert column a.name⟩
  | none => columns

def ofAttributes (attributes : List Attribute) : Columns := attributes.foldl rename empty

def column (columns : Columns) (name : String) : String :=
  (columns.toColumn.get? name).getD name

def attributeName (columns : Columns) (column : String) : String :=
  (columns.toAttribute.get? column).getD column

/-- No attribute is renamed. -/
def isIdentity (columns : Columns) : Bool := columns.toColumn.isEmpty

/-- Names the keys of a record by column. -/
def lowerRecord (columns : Columns) (record : Record) : Record :=
  if columns.isIdentity then record else record.mapKeys columns.column

/-- Names the keys of a record by attribute. -/
def raiseRecord (columns : Columns) (record : Record) : Record :=
  if columns.isIdentity then record else record.mapKeys columns.attributeName

def lowerNames (columns : Columns) (names : List String) : List String :=
  names.map columns.column

mutual

def lowerEntries (columns : Columns) : List (String × Json) → List (String × Json)
  | [] => []
  | (key, value) :: rest => lowerEntry columns key value :: lowerEntries columns rest

def lowerEntry (columns : Columns) (key : String) : Json → String × Json
  | .arr branches =>
      if key = "and" ∨ key = "or" then (key, .arr (lowerBranches columns branches))
      else (columns.column key, .arr branches)
  | value => (columns.column key, value)

def lowerBranches (columns : Columns) : List Json → List Json
  | [] => []
  | .obj ⟨fields⟩ :: rest =>
      .obj (.ofList (lowerEntries columns fields)) :: lowerBranches columns rest
  | branch :: rest => branch :: lowerBranches columns rest

end

/-- Names the keys of a filter by column, in the branches of `and` and `or` too. What a key is
compared with is left as it is. -/
def lowerFilter (columns : Columns) (filter : Record) : Record :=
  .ofList (lowerEntries columns filter.entries)

end Columns

end GraphRecords
