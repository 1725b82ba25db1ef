import GraphRecords.Proofs.Json.Equality
import GraphRecords.Proofs.Store.GeneratedKeys

/-!
# Batches stored again

A batch that replaces rows and gives every key itself takes away, when it is stored again, the rows
that it had put there and no others. It is then checked against the same rows as before, and puts
its records back where they stood.
-/

namespace GraphRecords.Store

variable {sort : RowSort} {unique : List (String × String)} {primaryKey : String}
variable {records rows : List Record}
variable {id : TableId} {query : PhysicalQuery} {store : Store}

/-- Each of the records gives its key. -/
def AllKeyed (primaryKey : String) (records : List Record) : Prop :=
  ∀ record ∈ records, (keyOf? primaryKey record).isSome = true

instance (primaryKey : String) (records : List Record) : Decidable (AllKeyed primaryKey records) :=
  inferInstanceAs (Decidable (∀ record ∈ records, _))

theorem AllKeyed.keyless (h : AllKeyed primaryKey records) : keyless primaryKey records = 0 := by
  apply List.countP_eq_zero.mpr
  intro record hrecord
  rw [Option.isNone_iff_eq_none, ← Ne, Option.ne_none_iff_isSome]
  exact h record hrecord

theorem AllKeyed.keyed (h : AllKeyed primaryKey records) (nextKey : Nat) :
    keyed primaryKey nextKey records = records := by
  induction records generalizing nextKey with
  | nil => rfl
  | cons record rest ih =>
    obtain ⟨hrecord, hrest⟩ := List.forall_mem_cons.mp h
    rw [Store.keyed, rowOf_of_isSome hrecord, ih hrest]

private theorem AllKeyed.withoutKeys_self (h : AllKeyed primaryKey records) :
    withoutKeys primaryKey records records = [] := by
  rw [List.eq_nil_iff_forall_not_mem]
  intro record hrecord
  obtain ⟨hmem, hstays⟩ := mem_withoutKeys_iff.mp hrecord
  obtain ⟨key, hkey⟩ := Option.isSome_iff_exists.mp (h record hmem)
  exact hstays ⟨record, hmem, key, key, keyOf?_eq_some hkey, hkey, Json.same_self key⟩

private theorem AllKeyed.withoutKeys_append (h : AllKeyed primaryKey records) (rows : List Record) :
    withoutKeys primaryKey records (withoutKeys primaryKey records rows ++ records) =
      withoutKeys primaryKey records rows := by
  have happend : withoutKeys primaryKey records (withoutKeys primaryKey records rows ++ records) =
      withoutKeys primaryKey records (withoutKeys primaryKey records rows) ++
        withoutKeys primaryKey records records := List.filter_append ..
  have htwice : withoutKeys primaryKey records (withoutKeys primaryKey records rows) =
      withoutKeys primaryKey records rows := by
    simp only [withoutKeys, List.filter_filter, Bool.and_self]
  rw [happend, htwice, h.withoutKeys_self, List.append_nil]

/-- A batch that gives every key and is not refused is stored as it is, and generates no key. -/
theorem AllKeyed.staged_eq {nextKey : Nat} (h : AllKeyed query.primaryKey query.newRecords)
    (hs : store.staged unique id query = (.ok rows, nextKey)) :
    rows = query.newRecords ∧ nextKey = store.nextKey := by
  obtain ⟨hrows, hnext⟩ := stage_eq_ok_keyed hs
  rw [h.keyed, List.nil_append] at hrows
  rw [h.keyless, Nat.add_zero] at hnext
  exact ⟨hrows, hnext⟩

section Replacing

variable (hm : query.method = .normalizeEach) (hkeyed : AllKeyed query.primaryKey query.newRecords)

include hm

private theorem kept_of_normalizeEach (id : TableId) (store : Store) :
    store.kept id query = withoutKeys query.primaryKey query.newRecords (store.rows id) :=
  if_pos hm

include hkeyed

private theorem kept_created (hrows : store.persisted unique id query = query.newRecords) :
    (store.created unique id query).kept id query = store.kept id query := by
  rw [kept_of_normalizeEach hm, kept_of_normalizeEach hm, rows_created, hrows,
    kept_of_normalizeEach hm, hkeyed.withoutKeys_append]

private theorem staged_created {nextKey : Nat}
    (hs : store.staged unique id query = (.ok rows, nextKey)) :
    (store.created unique id query).staged unique id query = store.staged unique id query := by
  obtain ⟨hrows, hnext⟩ := hkeyed.staged_eq hs
  have hpersisted : store.persisted unique id query = query.newRecords :=
    (create_stored hs).1.trans hrows
  have hkey : (store.created unique id query).nextKey = store.nextKey := by
    rw [created, hs, hnext]
  rw [staged, staged, kept_created hm hkeyed hpersisted, hkey]

private theorem created_created {nextKey : Nat}
    (hs : store.staged unique id query = (.ok rows, nextKey)) :
    (store.created unique id query).created unique id query = store.created unique id query := by
  have hstaged := staged_created hm hkeyed hs
  have hpersisted : store.persisted unique id query = query.newRecords :=
    (create_stored hs).1.trans (hkeyed.staged_eq hs).1
  have hagain : (store.created unique id query).persisted unique id query =
      store.persisted unique id query := by
    rw [persisted, persisted, hstaged]
  have hset : (store.created unique id query).setRows id
      (store.kept id query ++ store.persisted unique id query) = store.created unique id query := by
    simp [created, setRows, setEntry]
  rw [created, kept_created hm hkeyed hpersisted, hagain, hset, hstaged]
  rfl

end Replacing

/-- A batch that replaces rows, gives every key itself and is stored leaves the rows that it does
not replace with its records behind them. Stored again it is answered as before, and leaves the
store, rows and members and the next key, just as it is. -/
theorem normalizeEach_again (sort : RowSort) (unique : List (String × String)) (datastore : String)
    (query : PhysicalQuery) (store next : Store) (answer : Answer)
    (hm : query.method = .normalizeEach) (hkeyed : AllKeyed query.primaryKey query.newRecords)
    (h : store.execute sort unique datastore query = (.ok answer, next)) :
    next.rows ⟨datastore, query.table⟩ =
        withoutKeys query.primaryKey query.newRecords (store.rows ⟨datastore, query.table⟩) ++
          query.newRecords ∧
      next.execute sort unique datastore query = (.ok answer, next) := by
  have hexecute (store : Store) : store.execute sort unique datastore query =
      store.create unique ⟨datastore, query.table⟩ query := by
    unfold execute
    rw [hm]
  rw [hexecute] at h ⊢
  rcases hs : store.staged unique ⟨datastore, query.table⟩ query with ⟨error | rows, nextKey⟩
  · rw [(create_refused hs).2] at h
    cases h
  · obtain ⟨hpersisted, _, hcreate⟩ := create_stored hs
    rw [hcreate] at h
    obtain ⟨rfl, rfl⟩ : createdAnswer query rows = answer ∧
        store.created unique ⟨datastore, query.table⟩ query = next := by
      simpa using h
    constructor
    · rw [rows_created, kept_of_normalizeEach hm, hpersisted, (hkeyed.staged_eq hs).1]
    · have hagain := (staged_created hm hkeyed hs).trans hs
      rw [(create_stored hagain).2.2, created_created hm hkeyed hs]

private def called (key : Nat) (name : String) : Record :=
  ⟨[("id", Json.nat key), ("name", .str name)]⟩

private def replacing (newRecords : List Record) : PhysicalQuery where
  method := .normalizeEach
  table := "pets"
  identity := "pet"
  primaryKey := "id"
  newRecords := newRecords
  callMeta := { fetch := true }

/-- The pets 1 and 2 beside a next key that is taken. -/
private def bothPets : Store :=
  Store.setRows {} ⟨"default", "pets"⟩ [called 2 "Tom", called 1 "Rex"]

/-- Under a unique name, Tom gives way to two pets of his key and one of a key of its own. -/
theorem normalizeEach_again_renamed : ∃ answer next,
    AllKeyed "id" [called 2 "Kit", called 3 "Tom", called 2 "Sam"] ∧
      bothPets.execute .inserting [("pets", "name")] "default"
        (replacing [called 2 "Kit", called 3 "Tom", called 2 "Sam"]) = (.ok answer, next) ∧
      next.rows ⟨"default", "pets"⟩ =
        [called 1 "Rex", called 2 "Kit", called 3 "Tom", called 2 "Sam"] ∧
      next.execute .inserting [("pets", "name")] "default"
        (replacing [called 2 "Kit", called 3 "Tom", called 2 "Sam"]) = (.ok answer, next) := by
  have hkeyed : AllKeyed "id" [called 2 "Kit", called 3 "Tom", called 2 "Sam"] := by decide
  obtain ⟨hrows, hagain⟩ := normalizeEach_again .inserting [("pets", "name")] "default"
    (replacing [called 2 "Kit", called 3 "Tom", called 2 "Sam"]) bothPets _ _ rfl hkeyed rfl
  exact ⟨_, _, hkeyed, rfl, hrows, hagain⟩

end GraphRecords.Store
