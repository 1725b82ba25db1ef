import GraphRecords.Orm.Setup
import GraphRecords.Proofs.Delivery.Links
import GraphRecords.Proofs.Filter.Matching
import GraphRecords.Proofs.Json.Equality
import GraphRecords.Proofs.Orm.Calls

/-!
# Links of other records

Which links a call that stores new records leaves alone. The row that gets the members of a
record is found by the key of the record, and a key that is an object is read as modifiers, which
may well hold of other rows.
-/

namespace GraphRecords

namespace Store

/-- The texts of the keys that the records of a query are stored under. -/
def persistedKeys (unique : List (String × String)) (id : TableId) (query : PhysicalQuery)
    (store : Store) : List String :=
  ((store.persisted unique id query).filterMap (keyOf? query.primaryKey)).map Json.render

/-- The keys that members are stored for find no row from before the query but under a key of
the query. -/
def KeysApart (unique : List (String × String)) (id : TableId) (query : PhysicalQuery)
    (store : Store) : Prop :=
  ∀ pair ∈ (store.persisted unique id query).zip query.resets, pair.2.isEmpty = false →
    ∀ owner, Finds (store.kept id query) query.primaryKey pair.1 owner →
      owner ∈ store.persistedKeys unique id query

/-- The stored keys are plain, and their column is read as a column. -/
def KeysPlain (unique : List (String × String)) (id : TableId) (query : PhysicalQuery)
    (store : Store) : Prop :=
  query.primaryKey ≠ "and" ∧ query.primaryKey ≠ "or" ∧
    ∀ record ∈ store.persisted unique id query, ∀ key ∈ keyOf? query.primaryKey record, key.Plain

instance (unique : List (String × String)) (id : TableId) (query : PhysicalQuery) (store : Store) :
    Decidable (store.KeysPlain unique id query) :=
  inferInstanceAs (Decidable (_ ∧ _ ∧ _))

variable {sort : RowSort} {unique : List (String × String)} {id : TableId} {query : PhysicalQuery}
variable {store : Store}

private theorem render_mem_persistedKeys {record : Record}
    (hr : record ∈ store.persisted unique id query) {key : Json}
    (h : keyOf? query.primaryKey record = some key) :
    key.render ∈ store.persistedKeys unique id query :=
  List.mem_map_of_mem (List.mem_filterMap.mpr ⟨record, hr, h⟩)

private theorem KeysPlain.keysApart (h : store.KeysPlain unique id query) :
    store.KeysApart unique id query := by
  obtain ⟨hand, hor, hplain⟩ := h
  rintro ⟨record, reset⟩ hm _ owner ⟨key, hkey, row, hrow, hholds, found, hfound, rfl⟩
  have hrecord := (List.of_mem_zip hm).1
  have hp := hplain record hrecord key hkey
  have hsame : (found == key) = true := by
    rw [Filter.holdsFor_single row hand hor, Dict.getD, hfound] at hholds
    cases key with
    | obj => cases hp
    | null | bool | num | str | arr => exact hholds
  rw [hp.eq_of_same hsame]
  exact render_mem_persistedKeys hrecord hkey

private theorem KeysApart.mem_of_finds (h : store.KeysApart unique id query)
    {pair : Record × CollectionReset}
    (hm : pair ∈ (store.persisted unique id query).zip query.resets)
    (hreset : pair.2.isEmpty = false) {owner : String}
    (hfinds : Finds (store.kept id query ++ store.persisted unique id query) query.primaryKey
      pair.1 owner) : owner ∈ store.persistedKeys unique id query := by
  obtain ⟨key, hkey, row, hrow, hholds, found, hfound, rfl⟩ := hfinds
  rcases List.mem_append.mp hrow with hkept | hnew
  · exact h pair hm hreset _ ⟨key, hkey, row, hkept, hholds, found, hfound, rfl⟩
  · obtain ⟨k, hk⟩ := exists_keyOf?_of_mem_persisted hnew
    have heq : k = found := Option.some.inj ((keyOf?_eq_some hk).symm.trans hfound)
    exact render_mem_persistedKeys hnew (heq ▸ hk)

end Store

namespace BoundModel

variable {m : BoundModel Store} {sort : RowSort} {unique : List (String × String)}
variable {bound : Option Nat}
variable {method : Method} {request : Request} {context : CallContext} {store : Store}

/-- The table that the queries of the model are about. -/
def tableId (m : BoundModel Store) (query : PhysicalQuery) : TableId :=
  ⟨m.datastore.name, query.table⟩

/-- The link is of another table than that of the call, or its owner is none of the records that
the call persists. -/
def Foreign (m : BoundModel Store) (unique : List (String × String)) (method : Method)
    (request : Request) (context : CallContext) (store : Store) (link : LinkId) : Prop :=
  ∀ query ∈ m.physical? method request context, link.table = m.tableId query →
    link.owner ∉ store.persistedKeys unique (m.tableId query) query

instance (m : BoundModel Store) (unique : List (String × String)) (method : Method)
    (request : Request) (context : CallContext) (store : Store) (link : LinkId) :
    Decidable (m.Foreign unique method request context store link) :=
  inferInstanceAs (Decidable (∀ query ∈ m.physical? method request context,
    link.table = m.tableId query → link.owner ∉ store.persistedKeys unique (m.tableId query) query))

private theorem run_foreign_link (store : Store) (hm : m.adapter = .memory sort unique bound)
    (hooks : m.callbacks = {}) (hmethod : method.createsRecords = true)
    (hapart : ∀ query ∈ m.physical? method request context,
      store.KeysApart unique (m.tableId query) query)
    {link : LinkId} (hforeign : m.Foreign unique method request context store link) :
    (m.run method request context store).state.members? link = store.members? link := by
  rw [run_state hooks]
  cases hq : m.physical? method request context with
  | none => rfl
  | some query =>
    have hcreates := physical?_creates hmethod hq
    have hdelivery : (m.delivery context).adapter = .memory sort unique bound := hm
    simp only [Delivery.run_creates hdelivery hmethod hcreates store]
    rw [Delivery.members?_foldl_link_of_not_reaches, Store.members?_created]
    rintro pair hpair ⟨htable, hreset, hfinds⟩
    have hrows : (store.created unique (m.tableId query) query).rows (m.tableId query) =
        store.kept (m.tableId query) query ++ store.persisted unique (m.tableId query) query :=
      Store.rows_created ..
    have hmem := (hapart query hq).mem_of_finds hpair hreset (hrows ▸ hfinds)
    exact hforeign query hq htable hmem

private theorem keysApart_of_frame (hm : m.adapter = .memory sort unique bound)
    (hooks : m.callbacks = {}) (hmethod : method.createsRecords = true)
    (h : ∀ link, m.Foreign unique method request context store link →
      (m.run method request context { store with links := [] }).state.members? link = none)
    {query : PhysicalQuery} (hq : m.physical? method request context = some query) :
    store.KeysApart unique (m.tableId query) query := by
  intro pair hpair hreset owner hfinds
  by_contra howner
  obtain ⟨column, hcolumn⟩ := Delivery.exists_isSome_membersFor? (d := m.delivery context) hreset
  have hforeign : m.Foreign unique method request context store
      ⟨m.tableId query, owner, column⟩ := by
    intro other hother _
    cases hq.symm.trans hother
    exact howner
  have hnone := h _ hforeign
  rw [run_state hooks, hq] at hnone
  have hdelivery : (m.delivery context).adapter = .memory sort unique bound := hm
  simp only [Delivery.run_creates hdelivery hmethod (physical?_creates hmethod hq)] at hnone
  let created := ({ store with links := [] } : Store).created unique (m.tableId query) query
  have hreaches : (m.delivery context).Reaches query (created.rows (m.tableId query)) pair
      ⟨m.tableId query, owner, column⟩ := by
    obtain ⟨key, hkey, row, hrow, hfound⟩ := hfinds
    refine ⟨rfl, hreset, key, hkey, row, ?_, hfound⟩
    rw [Store.rows_created]
    exact List.mem_append_left _ hrow
  obtain ⟨members, hmembers⟩ := Option.isSome_iff_exists.mp
    (Delivery.isSome_members?_foldl_link created (.inr ⟨pair, hpair, hreaches, hcolumn⟩))
  cases hnone.symm.trans hmembers

/-- A call that stores new records leaves the links of all other records alone, whatever links
there are, if and only if the keys that it stores members for find no row under another key. They
do not where they are plain and their column is not called `and` or `or`. -/
theorem run_foreign_links_iff (m : BoundModel Store) (sort : RowSort)
    (unique : List (String × String))
    (bound : Option Nat) (hm : m.adapter = .memory sort unique bound) (hooks : m.callbacks = {})
    (method : Method) (hmethod : method.createsRecords = true) (request : Request)
    (context : CallContext) (store : Store) :
    ((∀ links link, m.Foreign unique method request context store link →
        (m.run method request context { store with links }).state.members? link =
          ({ store with links } : Store).members? link) ↔
      ∀ query ∈ m.physical? method request context,
        store.KeysApart unique (m.tableId query) query) ∧
    ((∀ query ∈ m.physical? method request context,
        store.KeysPlain unique (m.tableId query) query) →
      ∀ query ∈ m.physical? method request context,
        store.KeysApart unique (m.tableId query) query) := by
  refine ⟨⟨?_, ?_⟩, ?_⟩
  · intro h query hq
    exact keysApart_of_frame hm hooks hmethod (fun link hforeign => h [] link hforeign) hq
  · intro hapart links link hforeign
    exact run_foreign_link { store with links } hm hooks hmethod hapart hforeign
  · intro hplain query hq
    exact (hplain query hq).keysApart

private def petSetup : Setup Store where
  datastores := ⟨[("default", { adapter := .memory .inserting [] none })]⟩
  definitions := [
    { identity := some "pet",
      attributes := ⟨[("toys", .obj ⟨[("collection", .str "toy")]⟩)]⟩ },
    { identity := some "toy" }]

private def petRequest (key toy : Json) : Request where
  newRecord := some (.obj ⟨[("id", key), ("toys", .arr [toy])]⟩)

private def petContext : CallContext where
  requestId := 1
  method := .create
  identity := "pet"
  datastore := "default"
  madeAt := ⟨0, 0⟩

private def petQuery (method : Method) : PhysicalQuery where
  method := method
  table := "pet"
  identity := "pet"
  primaryKey := "id"
  newRecords := [⟨[("id", Json.nat 1)]⟩]
  valuesToSet := some ⟨[("toys", .arr [Json.nat 7])]⟩

/-- A pet of key 1 with a toy. -/
private def petStore : Store :=
  (Store.execute .inserting [] "default" (petQuery .replaceCollection)
    (Store.execute .inserting [] "default" (petQuery .create) {}).2).2

/-- A second pet, of key 2, takes nothing from the first. -/
theorem run_foreign_links_second_pet :
    ∃ orm m, petSetup.start = .ok orm ∧ orm.model "pet" = .ok m ∧
      ∀ links link,
        m.Foreign [] .create (petRequest (Json.nat 2) (Json.nat 8)) petContext petStore link →
        (m.run .create (petRequest (Json.nat 2) (Json.nat 8)) petContext
            { petStore with links }).state.members? link =
          ({ petStore with links } : Store).members? link := by
  refine ⟨_, _, rfl, rfl, ?_⟩
  refine (run_foreign_links_iff _ .inserting [] none rfl rfl .create rfl
    (petRequest (Json.nat 2) (Json.nat 8)) petContext petStore).1.mpr ?_
  exact (run_foreign_links_iff _ .inserting [] none rfl rfl .create rfl
    (petRequest (Json.nat 2) (Json.nat 8)) petContext petStore).2 (by decide)

/-- A pet whose key asks for what is not null replaces the toys of the first. -/
theorem object_key_replaces_other_links :
    ¬ ∀ (setup : Setup Store) (sort : RowSort) (unique : List (String × String))
      (bound : Option Nat) (orm : Orm Store) (identity : String) (m : BoundModel Store)
      (method : Method) (request : Request) (context : CallContext) (store : Store) (link : LinkId),
      (∀ entry ∈ setup.datastores.entries, entry.2.adapter = .memory sort unique bound) →
      setup.start = .ok orm → orm.model identity = .ok m → m.callbacks = {} →
      method.createsRecords = true → Store.Reachable sort unique store →
      m.Foreign unique method request context store link →
      (m.run method request context store).state.members? link = store.members? link := by
  intro h
  have hsame := h petSetup .inserting [] none _ "pet" _ .create
    (petRequest (.obj ⟨[("!=", .null)]⟩) (Json.nat 8)) petContext petStore
    ⟨⟨"default", "pet"⟩, "1", "toys"⟩ (by simp [petSetup]) rfl rfl rfl rfl
    (.execute _ _ (.execute _ _ .empty)) (by decide)
  exact absurd (congrArg (Option.map (List.map Json.render)) hsame) (by decide)

end BoundModel

end GraphRecords
