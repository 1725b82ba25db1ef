import GraphRecords.Query.Physical

/-!
# Record stores

A store keeps the rows of every table of every datastore, the members of to-many associations
beside them, and the next key that it will generate.
-/

namespace GraphRecords

structure TableId where
  datastore : String
  table : String
  deriving Repr, DecidableEq

/-- The association of one row, which is known by the text of its primary key. -/
structure LinkId where
  table : TableId
  owner : String
  column : String
  deriving Repr, DecidableEq

/-- Sets one entry of an association list, dropping the one that stood under its key. -/
def setEntry {κ α : Type} [DecidableEq κ] (key : κ) (value : α) (entries : List (κ × α)) :
    List (κ × α) :=
  (key, value) :: entries.filter (fun entry => entry.1 ≠ key)

theorem lookup_filter_ne {κ α : Type} [DecidableEq κ] {key other : κ} (h : other ≠ key)
    (entries : List (κ × α)) :
    (entries.filter (fun entry => entry.1 ≠ key)).lookup other = entries.lookup other := by
  induction entries with
  | nil => rfl
  | cons entry rest ih =>
      obtain ⟨k, v⟩ := entry
      have cons (l : List (κ × α)) :
          List.lookup other ((k, v) :: l) = if other = k then some v else l.lookup other := by
        by_cases ho : other = k
        · simp [ho]
        · have hb : (other == k) = false := by simpa using ho
          simp only [List.lookup_cons, hb, if_neg ho]
      by_cases hk : k = key
      · subst hk
        rw [List.filter_cons_of_neg (by simp), ih, cons, if_neg h]
      · rw [List.filter_cons_of_pos (by simpa using hk), cons, cons, ih]

theorem lookup_setEntry {κ α : Type} [DecidableEq κ] (key other : κ) (value : α)
    (entries : List (κ × α)) :
    (setEntry key value entries).lookup other =
      if other = key then some value else entries.lookup other := by
  by_cases h : other = key
  · simp [setEntry, h]
  · have hb : (other == key) = false := by simpa using h
    simp only [setEntry, List.lookup_cons, hb, if_neg h]
    exact lookup_filter_ne h entries

/-- The counter of keys is taken not to run out: one of 64 bits starts again from 0 behind
`2 ^ 64 - 1`. -/
structure Store where
  tables : List (TableId × List Record) := []
  links : List (LinkId × List Json) := []
  nextKey : Nat := 1
  deriving Repr, Inhabited

namespace Store

/-- The rows of a table in stored order. -/
def rows (store : Store) (id : TableId) : List Record := (store.tables.lookup id).getD []

def setRows (store : Store) (id : TableId) (rows : List Record) : Store :=
  { store with tables := setEntry id rows store.tables }

/-- The members stored for an association, if any were. -/
def members? (store : Store) (id : LinkId) : Option (List Json) := store.links.lookup id

def setMembers (store : Store) (id : LinkId) (members : List Json) : Store :=
  { store with links := setEntry id members store.links }

def linkId (table : TableId) (owner : Json) (column : String) : LinkId :=
  ⟨table, owner.render, column⟩

theorem rows_setRows (store : Store) (id other : TableId) (rows : List Record) :
    (store.setRows id rows).rows other = if other = id then rows else store.rows other := by
  simp only [Store.rows, setRows, lookup_setEntry]
  split <;> rfl

theorem rows_setRows_self (store : Store) (id : TableId) (rows : List Record) :
    (store.setRows id rows).rows id = rows :=
  (rows_setRows store id id rows).trans (if_pos rfl)

theorem members?_setMembers (store : Store) (id other : LinkId) (members : List Json) :
    (store.setMembers id members).members? other =
      if other = id then some members else store.members? other :=
  lookup_setEntry id other members store.links

theorem rows_setMembers (store : Store) (id : LinkId) (members : List Json) (table : TableId) :
    (store.setMembers id members).rows table = store.rows table := rfl

end Store

end GraphRecords
