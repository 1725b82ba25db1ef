import GraphRecords.Adapter.Delivery
import GraphRecords.Proofs.Query.Creation
import GraphRecords.Proofs.Store.Members
import GraphRecords.Proofs.Store.Staging

/-!
# Delivery to a store

A query with new records first stores the records and then, one record after another, their
members. The rows that get the members of a record are found again by the key of the record.
-/

namespace GraphRecords

/-- The key of the record, used as a filter, finds a row whose own key has that text. -/
def Store.Finds (rows : List Record) (primaryKey : String) (record : Record) (owner : String) :
    Prop :=
  ∃ key, keyOf? primaryKey record = some key ∧
    ∃ row ∈ rows, Filter.holdsFor ⟨[(primaryKey, key)]⟩ row = true ∧
      ∃ found, row.get? primaryKey = some found ∧ found.render = owner

namespace Delivery

variable {d : Delivery Store} {sort : RowSort} {unique : List (String × String)}
variable {bound : Option Nat}

/-- The table that a query of the delivery is about. -/
def tableId {σ : Type} (d : Delivery σ) (query : PhysicalQuery) : TableId :=
  ⟨d.datastore.name, query.table⟩

/-- The members of one record are stored. -/
def link (d : Delivery Store) (query : PhysicalQuery) (store : Store)
    (pair : Record × CollectionReset) : Store :=
  if pair.2.isEmpty then store
  else match Store.keyOf? query.primaryKey pair.1 with
    | none => store
    | some key => store.replaceCollection (d.tableId query) (d.replaceQuery query key pair.2)

theorem rows_link (query : PhysicalQuery) (store : Store) (pair : Record × CollectionReset)
    (table : TableId) : (d.link query store pair).rows table = store.rows table := by
  unfold link
  split
  · rfl
  · split
    · rfl
    · exact Store.rows_replaceCollection ..

/-- The members that the record gives for a column. -/
def membersFor? (d : Delivery Store) (reset : CollectionReset) (column : String) :
    Option (List Json) :=
  Store.membersIn? ((reset.map Json.arr).mapKeys d.model.columns.column) column

/-- The link is that of a row which the key of the record finds. -/
def Reaches (d : Delivery Store) (query : PhysicalQuery) (rows : List Record)
    (pair : Record × CollectionReset) (link : LinkId) : Prop :=
  link.table = d.tableId query ∧ pair.2.isEmpty = false ∧
    Store.Finds rows query.primaryKey pair.1 link.owner

private theorem values_replaceQuery_ordered (query : PhysicalQuery) (key : Json)
    (reset : CollectionReset) : (Store.values (d.replaceQuery query key reset)).Ordered :=
  Dict.ordered_ofList _

private theorem mem_owners_replaceQuery_iff (query : PhysicalQuery) (key : Json)
    (reset : CollectionReset) (store : Store) (owner : String) :
    owner ∈ (store.owners (d.tableId query) (d.replaceQuery query key reset)).map Json.render ↔
      ∃ row ∈ store.rows (d.tableId query),
        Filter.holdsFor ⟨[(query.primaryKey, key)]⟩ row = true ∧
          ∃ found, row.get? query.primaryKey = some found ∧ found.render = owner := by
  simp only [Store.owners, Store.matching, List.mem_map, List.mem_filterMap, List.mem_filter]
  constructor
  · rintro ⟨found, ⟨row, ⟨hrow, hselects⟩, hfound⟩, rfl⟩
    exact ⟨row, hrow, hselects, found, hfound, rfl⟩
  · rintro ⟨row, hrow, hselects, found, hfound, rfl⟩
    exact ⟨found, ⟨row, ⟨hrow, hselects⟩, hfound⟩, rfl⟩

theorem members?_link_of_reaches {query : PhysicalQuery} {store : Store}
    {pair : Record × CollectionReset} {l : LinkId}
    (h : d.Reaches query (store.rows (d.tableId query)) pair l) :
    (d.link query store pair).members? l =
      (d.membersFor? pair.2 l.column).or (store.members? l) := by
  obtain ⟨htable, hreset, key, hkey, hfound⟩ := h
  have howner := (mem_owners_replaceQuery_iff query key pair.2 store l.owner).mpr hfound
  have hlink : d.link query store pair =
      store.replaceCollection (d.tableId query) (d.replaceQuery query key pair.2) := by
    simp only [link, hreset, hkey, Bool.false_eq_true, if_false]
  rw [hlink, Store.members?_replaceCollection (values_replaceQuery_ordered ..),
    if_pos ⟨htable, howner⟩]
  rfl

private theorem members?_link_of_not_reaches {query : PhysicalQuery} {store : Store}
    {pair : Record × CollectionReset} {l : LinkId}
    (h : ¬ d.Reaches query (store.rows (d.tableId query)) pair l) :
    (d.link query store pair).members? l = store.members? l := by
  unfold link
  split
  · rfl
  · rename_i hreset
    split
    · rfl
    · rename_i key hkey
      rw [Store.members?_replaceCollection (values_replaceQuery_ordered ..), if_neg]
      rintro ⟨htable, howner⟩
      have hfound := (mem_owners_replaceQuery_iff query key pair.2 store l.owner).mp howner
      exact h ⟨htable, by simpa using hreset, key, hkey, hfound⟩

/-- Storing members never fails on records that have their keys. -/
theorem storeMembers_eq (hd : d.adapter = .memory sort unique bound) {query : PhysicalQuery}
    {pairs : List (Record × CollectionReset)} (store : Store)
    (hkeys : ∀ pair ∈ pairs, ∃ key, Store.keyOf? query.primaryKey pair.1 = some key) :
    d.storeMembers query pairs store = (.ok (), pairs.foldl (d.link query) store) := by
  induction pairs generalizing store with
  | nil => rfl
  | cons pair rest ih =>
    obtain ⟨record, reset⟩ := pair
    obtain ⟨key, hkey⟩ := hkeys (record, reset) List.mem_cons_self
    have hrest := fun store => ih store (fun pair hm => hkeys pair (List.mem_cons_of_mem _ hm))
    rw [storeMembers, List.foldl_cons, link]
    split
    · exact hrest store
    · have hexecute : d.execute (d.replaceQuery query key reset) store =
          (.ok none, store.replaceCollection (d.tableId query)
            (d.replaceQuery query key reset)) := by
        rw [execute, hd]
        rfl
      simp only [hkey, hexecute]
      exact hrest _

theorem members?_foldl_link_of_not_reaches {query : PhysicalQuery} {l : LinkId}
    {pairs : List (Record × CollectionReset)} (store : Store)
    (h : ∀ pair ∈ pairs, ¬ d.Reaches query (store.rows (d.tableId query)) pair l) :
    (pairs.foldl (d.link query) store).members? l = store.members? l := by
  induction pairs generalizing store with
  | nil => rfl
  | cons pair rest ih =>
    rw [List.foldl_cons, ih, members?_link_of_not_reaches (h pair List.mem_cons_self)]
    intro other hm
    rw [rows_link]
    exact h other (List.mem_cons_of_mem _ hm)

private theorem isSome_members?_link {query : PhysicalQuery} {store : Store}
    (pair : Record × CollectionReset) {l : LinkId} (h : (store.members? l).isSome) :
    ((d.link query store pair).members? l).isSome := by
  by_cases hreaches : d.Reaches query (store.rows (d.tableId query)) pair l
  · rw [members?_link_of_reaches hreaches, Option.isSome_or, h, Bool.or_true]
  · rwa [members?_link_of_not_reaches hreaches]

theorem isSome_members?_foldl_link {query : PhysicalQuery} {l : LinkId}
    {pairs : List (Record × CollectionReset)} (store : Store)
    (h : (store.members? l).isSome ∨ ∃ pair ∈ pairs,
      d.Reaches query (store.rows (d.tableId query)) pair l ∧
        (d.membersFor? pair.2 l.column).isSome) :
    ((pairs.foldl (d.link query) store).members? l).isSome := by
  induction pairs generalizing store with
  | nil =>
    rcases h with h | ⟨_, hm, _⟩
    · exact h
    · cases hm
  | cons pair rest ih =>
    rw [List.foldl_cons]
    apply ih
    rw [rows_link]
    rcases h with h | ⟨reached, hm, hreaches, hgiven⟩
    · exact .inl (isSome_members?_link pair h)
    · rcases List.mem_cons.mp hm with rfl | hm
      · rw [members?_link_of_reaches hreaches, Option.isSome_or, hgiven]
        exact .inl rfl
      · exact .inr ⟨reached, hm, hreaches, hgiven⟩

theorem exists_isSome_membersFor? {reset : CollectionReset} (h : reset.isEmpty = false) :
    ∃ column, (d.membersFor? reset column).isSome := by
  obtain ⟨entries⟩ := reset
  cases entries with
  | nil => cases h
  | cons entry rest =>
    refine ⟨d.model.columns.column entry.1, ?_⟩
    rw [membersFor?, Store.membersIn?, Option.isSome_map, Option.isSome_iff_ne_none, Ne,
      Dict.mapKeys, Dict.get?_ofList_eq_none_iff, Decidable.not_not]
    exact List.mem_cons_self

private theorem persisted_createdAnswer {method : Method} {query : PhysicalQuery}
    (hq : query.Creates method) (hr : query.hasResets = true) {rows : List Record}
    (hlength : rows.length = query.newRecords.length) :
    persisted (Store.createdAnswer query rows) = rows := by
  rw [Store.createdAnswer, hq.fetches hr]
  by_cases hm : query.method = .create
  · rw [hq.single (hq.method_eq ▸ hm)] at hlength
    obtain ⟨row, rfl⟩ := List.length_eq_one_iff.mp hlength
    simp [hm, persisted]
  · have hobjects : (rows.map Json.obj).filterMap Json.toObject? = rows := by
      rw [List.filterMap_map]
      exact List.filterMap_some
    simp [hm, persisted, hobjects]

private theorem foldl_link_of_not_hasResets {query : PhysicalQuery} (h : query.hasResets = false)
    (records : List Record) (store : Store) :
    (records.zip query.resets).foldl (d.link query) store = store := by
  have hall : ∀ pair ∈ records.zip query.resets, pair.2.isEmpty = true := by
    intro pair hm
    have hreset := List.any_eq_false.mp h pair.2 (List.of_mem_zip hm).2
    simpa using hreset
  generalize records.zip query.resets = pairs at hall
  induction pairs with
  | nil => rfl
  | cons pair rest ih =>
    rw [List.foldl_cons, link, if_pos (hall pair List.mem_cons_self)]
    exact ih (fun pair hm => hall pair (List.mem_cons_of_mem _ hm))

private theorem applyResets_created (hd : d.adapter = .memory sort unique bound) {method : Method}
    {query : PhysicalQuery} (hq : query.Creates method) {store : Store} {rows : List Record}
    {next : Nat} (hs : store.staged unique (d.tableId query) query = (.ok rows, next)) :
    d.applyResets query (Store.createdAnswer query rows)
        (store.created unique (d.tableId query) query) =
      (.ok (), (rows.zip query.resets).foldl (d.link query)
        (store.created unique (d.tableId query) query)) := by
  obtain ⟨hpersisted, hlength, _⟩ := Store.create_stored hs
  cases hr : query.hasResets with
  | false => simp only [applyResets, hr, foldl_link_of_not_hasResets hr, Bool.not_false, if_true]
  | true =>
    have hrows := persisted_createdAnswer hq hr hlength
    have hresets : rows.length = query.resets.length := hlength.trans hq.resets_length.symm
    simp only [applyResets, hr, hrows, hresets, Bool.not_true, Bool.false_eq_true, if_false,
      if_true]
    apply storeMembers_eq hd
    intro pair hm
    rw [← hpersisted] at hm
    exact Store.exists_keyOf?_of_mem_persisted (List.of_mem_zip hm).1

theorem settle_of_not_creates {query : PhysicalQuery} (h : query.method.createsRecords = false)
    (model : Model) (answer : Answer) : settle model query answer = answer.map (raise model) := by
  rw [settle, h]
  rfl

private theorem check_eq_ok (hd : d.adapter = .memory sort unique bound) (query : PhysicalQuery) :
    d.check query = .ok () := by
  simp only [check, ensureSupported, hd, Adapter.memory, if_true]
  split <;> rfl

private theorem execute_eq (hd : d.adapter = .memory sort unique bound) (query : PhysicalQuery)
    (store : Store) :
    d.execute query store = ((store.execute sort unique d.datastore.name query).1.mapError d.fault,
      (store.execute sort unique d.datastore.name query).2) := by
  rw [execute, hd]
  rfl

theorem run_of_not_hasResets (hd : d.adapter = .memory sort unique bound) {query : PhysicalQuery}
    (hresets : query.hasResets = false) (store : Store) :
    d.run query store =
      (((store.execute sort unique d.datastore.name query).1.mapError d.fault).map
          (settle d.model query),
        (store.execute sort unique d.datastore.name query).2) := by
  rw [run, check_eq_ok hd]
  simp only [execute_eq hd]
  cases (store.execute sort unique d.datastore.name query).1 with
  | error error => rfl
  | ok answer => simp [Except.mapError, Except.map, applyResets, hresets]

private theorem execute_creates (hd : d.adapter = .memory sort unique bound) {method : Method}
    (hm : method.createsRecords = true) {query : PhysicalQuery} (hq : query.Creates method)
    (store : Store) :
    d.execute query store = ((store.create unique (d.tableId query) query).1.mapError d.fault,
      (store.create unique (d.tableId query) query).2) := by
  have hmethod := hq.method_eq
  subst hmethod
  have hstore : Store.execute sort unique d.datastore.name query store =
      store.create unique (d.tableId query) query := by
    unfold Store.execute
    cases hmethod : query.method with
    | create | createEach | normalizeEach => rfl
    | find | findOne | count | update | destroy | replaceCollection =>
      rw [hmethod] at hm
      cases hm
  rw [execute_eq hd, hstore]

section Creates

variable (hd : d.adapter = .memory sort unique bound) {method : Method}
variable (hm : method.createsRecords = true) {query : PhysicalQuery} (hq : query.Creates method)
variable {store : Store}

include hd hm hq

theorem run_refused {error : AdapterError} {next : Nat}
    (hs : store.staged unique (d.tableId query) query = (.error error, next)) :
    d.run query store = (.error (d.fault error), store.created unique (d.tableId query) query) := by
  have hexecute := execute_creates hd hm hq store
  rw [(Store.create_refused hs).2] at hexecute
  simp only [run, check_eq_ok hd, hexecute, Except.mapError]

theorem run_stored {rows : List Record} {next : Nat}
    (hs : store.staged unique (d.tableId query) query = (.ok rows, next)) :
    d.run query store =
      (.ok (settle d.model query (Store.createdAnswer query rows)),
        (rows.zip query.resets).foldl (d.link query)
          (store.created unique (d.tableId query) query)) := by
  have hexecute := execute_creates hd hm hq store
  rw [(Store.create_stored hs).2.2] at hexecute
  simp only [run, check_eq_ok hd, hexecute, Except.mapError, applyResets_created hd hq hs]

/-- What a query with new records does to a store: the records are stored, and then the members
of each. -/
theorem run_creates (store : Store) :
    (d.run query store).2 =
      ((store.persisted unique (d.tableId query) query).zip query.resets).foldl (d.link query)
        (store.created unique (d.tableId query) query) := by
  rcases hs : store.staged unique (d.tableId query) query with ⟨error | rows, next⟩
  · rw [run_refused hd hm hq hs, (Store.create_refused hs).1]
    rfl
  · rw [run_stored hd hm hq hs, (Store.create_stored hs).1]

theorem length_persisted_of_run {answer : Answer} (h : (d.run query store).1 = .ok answer) :
    (store.persisted unique (d.tableId query) query).length = query.newRecords.length := by
  rcases hs : store.staged unique (d.tableId query) query with ⟨error | rows, next⟩
  · rw [run_refused hd hm hq hs] at h
    cases h
  · obtain ⟨hpersisted, hlength, _⟩ := Store.create_stored hs
    rw [hpersisted, hlength]

end Creates

end Delivery

end GraphRecords
