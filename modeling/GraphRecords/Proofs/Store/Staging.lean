import GraphRecords.Proofs.Outcome
import GraphRecords.Proofs.Store.Steps

/-!
# Staging new records

Staged rows are the new records in order, each under its own key or under a generated one. Either
all of them are stored behind the rows that are kept, or none is.
-/

namespace GraphRecords.Store

variable {sort : RowSort} {unique : List (String × String)} {id : TableId} {query : PhysicalQuery}
variable {store : Store}
variable {primaryKey : String}

theorem keyOf?_eq_some {row : Record} {key : Json} (h : keyOf? primaryKey row = some key) :
    row.get? primaryKey = some key :=
  (Option.filter_eq_some_iff.mp h).1

/-- The row gives way to a batch that holds an equal key. -/
def ReplacedBy (primaryKey : String) (batch : List Record) (row : Record) : Prop :=
  ∃ record ∈ batch, ∃ key given, row.get? primaryKey = some key ∧
    keyOf? primaryKey record = some given ∧ (key == given) = true

theorem mem_withoutKeys_iff {batch rows : List Record} {row : Record} :
    row ∈ withoutKeys primaryKey batch rows ↔ row ∈ rows ∧ ¬ ReplacedBy primaryKey batch row := by
  rw [withoutKeys, List.mem_filter]
  apply and_congr_right
  intro _
  cases hkey : row.get? primaryKey with
  | none => simp [ReplacedBy, hkey]
  | some key =>
    rw [Option.any_some, Bool.not_eq_true', Bool.eq_false_iff, Ne, not_iff_not,
      List.contains_iff_exists_mem_beq]
    constructor
    · rintro ⟨given, hgiven, heq⟩
      obtain ⟨record, hrecord, hof⟩ := List.mem_filterMap.mp hgiven
      exact ⟨record, hrecord, key, given, hkey, hof, heq⟩
    · rintro ⟨record, hrecord, _, given, hsame, hof, heq⟩
      cases hkey.symm.trans hsame
      exact ⟨given, List.mem_filterMap.mpr ⟨record, hrecord, hof⟩, heq⟩

theorem mem_kept_iff {row : Record} : row ∈ store.kept id query ↔ row ∈ store.rows id ∧
    ¬(query.method = .normalizeEach ∧ ReplacedBy query.primaryKey query.newRecords row) := by
  unfold kept
  split
  · rename_i hm
    simp only [mem_withoutKeys_iff, hm, true_and]
  · rename_i hm
    simp only [hm, false_and, not_false_eq_true, and_true]

/-- The row that a record is stored as. -/
def StoredAs (primaryKey : String) (record row : Record) : Prop :=
  ((keyOf? primaryKey record).isSome ∧ row = record) ∨
    (keyOf? primaryKey record = none ∧ ∃ key : Nat, row = record.insert primaryKey (Json.nat key))

private theorem StoredAs.exists_keyOf? {record row : Record} (h : StoredAs primaryKey record row) :
    ∃ key, keyOf? primaryKey row = some key := by
  rcases h with ⟨hkey, rfl⟩ | ⟨_, key, rfl⟩
  · exact Option.isSome_iff_exists.mp hkey
  · refine ⟨Json.nat key, ?_⟩
    rw [keyOf?, Dict.get?_insert_self]
    rfl

private theorem stage_eq_ok {columns : List String} {existing staged records rows : List Record}
    {nextKey next : Nat}
    (h : stage columns primaryKey existing staged nextKey records = (.ok rows, next)) :
    ∃ added, rows = staged ++ added ∧ List.Forall₂ (StoredAs primaryKey) records added := by
  induction records generalizing staged nextKey with
  | nil =>
    cases h
    exact ⟨[], (List.append_nil _).symm, .nil⟩
  | cons record rest ih =>
    simp only [stage] at h
    split at h
    · cases h
    · obtain ⟨added, rfl, hall⟩ := ih h
      refine ⟨_ :: added, List.append_assoc .., .cons ?_ hall⟩
      cases hkey : keyOf? primaryKey record with
      | some key => exact .inl ⟨by rw [hkey]; rfl, rfl⟩
      | none => exact .inr ⟨hkey, nextKey, rfl⟩

/-- The rows that the new records of a query become, none if they are refused. -/
def persisted (unique : List (String × String)) (id : TableId) (query : PhysicalQuery)
    (store : Store) : List Record :=
  match store.staged unique id query with
  | (.ok rows, _) => rows
  | (.error _, _) => []

/-- The store once the new records of a query are stored or refused. -/
def created (unique : List (String × String)) (id : TableId) (query : PhysicalQuery)
    (store : Store) : Store :=
  { store.setRows id (store.kept id query ++ store.persisted unique id query) with
    nextKey := (store.staged unique id query).2 }

private theorem forall₂_of_staged {rows : List Record} {next : Nat}
    (h : store.staged unique id query = (.ok rows, next)) :
    List.Forall₂ (StoredAs query.primaryKey) query.newRecords rows := by
  obtain ⟨added, rfl, hall⟩ := stage_eq_ok h
  exact hall

theorem exists_keyOf?_of_mem_persisted {row : Record}
    (h : row ∈ store.persisted unique id query) :
    ∃ key, keyOf? query.primaryKey row = some key := by
  rcases hs : store.staged unique id query with ⟨_ | rows, next⟩
  · simp only [persisted, hs] at h
    cases h
  · simp only [persisted, hs] at h
    obtain ⟨_, _, hrow⟩ := Outcome.exists_mem_of_forall₂ (forall₂_of_staged hs) h
    exact hrow.exists_keyOf?

theorem rows_created (unique : List (String × String)) (id : TableId) (query : PhysicalQuery)
    (store : Store) :
    (store.created unique id query).rows id =
      store.kept id query ++ store.persisted unique id query :=
  rows_setRows_self store id _

theorem members?_created (unique : List (String × String)) (id : TableId) (query : PhysicalQuery)
    (store : Store) (link : LinkId) :
    (store.created unique id query).members? link = store.members? link := rfl

theorem create_refused {error : AdapterError} {next : Nat}
    (hs : store.staged unique id query = (.error error, next)) :
    store.persisted unique id query = [] ∧
      store.create unique id query = (.error error, store.created unique id query) := by
  have hrows : store.persisted unique id query = [] := by simp only [persisted, hs]
  refine ⟨hrows, ?_⟩
  simp only [create, created, hrows, hs, List.append_nil]

theorem create_stored {rows : List Record} {next : Nat}
    (hs : store.staged unique id query = (.ok rows, next)) :
    store.persisted unique id query = rows ∧ rows.length = query.newRecords.length ∧
      store.create unique id query = (.ok (createdAnswer query rows),
        store.created unique id query) := by
  have hrows : store.persisted unique id query = rows := by simp only [persisted, hs]
  refine ⟨hrows, (forall₂_of_staged hs).length_eq.symm, ?_⟩
  simp only [create, created, hrows, hs]

end GraphRecords.Store
