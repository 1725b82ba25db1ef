import GraphRecords.Store.Execute

/-!
# Steps of a store

What one query can do to the contents of a store, and the stores that queries lead to.
-/

namespace GraphRecords.Store

/-- A query and the datastore that it is addressed to. -/
structure Step where
  datastore : String
  query : PhysicalQuery

/-- The table that the query is about. -/
def Step.table (step : Step) : TableId := ⟨step.datastore, step.query.table⟩

/-- The store that the query leaves. -/
def after (sort : RowSort) (unique : List (String × String)) (store : Store)
    (step : Step) : Store :=
  (store.execute sort unique step.datastore step.query).2

/-- The store that queries lead to, each executed after the ones before, failed or not. -/
def run (sort : RowSort) (unique : List (String × String)) (steps : List Step)
    (store : Store) : Store :=
  steps.foldl (after sort unique) store

theorem run_concat (sort : RowSort) (unique : List (String × String)) (steps : List Step)
    (step : Step) (store : Store) :
    run sort unique (steps ++ [step]) store =
      (run sort unique steps store).after sort unique step := by
  rw [run, List.foldl_append]
  rfl

variable {sort : RowSort} {unique : List (String × String)} {store : Store}

/-- The stores that any queries, failed ones included, lead to from the empty store. -/
def Reachable (sort : RowSort) (unique : List (String × String)) (store : Store) : Prop :=
  ∃ steps, store = run sort unique steps {}

theorem Reachable.empty : Reachable sort unique {} := ⟨[], rfl⟩

theorem Reachable.execute (datastore : String) (query : PhysicalQuery)
    (h : Reachable sort unique store) :
    Reachable sort unique (store.execute sort unique datastore query).2 := by
  obtain ⟨steps, rfl⟩ := h
  let step : Step := ⟨datastore, query⟩
  exact ⟨steps ++ [step], (run_concat sort unique steps step {}).symm⟩

theorem Reachable.induct {p : Store → Prop} (hempty : p {})
    (hstep : ∀ store step, p store → p (store.after sort unique step))
    (h : Reachable sort unique store) : p store := by
  obtain ⟨steps, rfl⟩ := h
  suffices hrun : ∀ store, p store → p (run sort unique steps store) from hrun {} hempty
  induction steps with
  | nil => exact fun _ h => h
  | cons step rest ih => exact fun store h => ih _ (hstep store step h)

/-- Two stores show the same rows in the same order and the same members. -/
structure SameContents (a b : Store) : Prop where
  rows (id : TableId) : a.rows id = b.rows id
  members? (link : LinkId) : a.members? link = b.members? link

theorem SameContents.refl (store : Store) : SameContents store store :=
  ⟨fun _ => rfl, fun _ => rfl⟩

/-- What a query does to a store: how it is answered, and the store that it leaves. -/
inductive Executes (sort : RowSort) (unique : List (String × String)) (id : TableId)
    (query : PhysicalQuery) (store : Store) : Except AdapterError Answer → Store → Prop
  | creates {rows : List Record} {nextKey : Nat} (hm : query.method.createsRecords = true)
      (hs : store.staged unique id query = (.ok rows, nextKey)) :
      Executes sort unique id query store (.ok (createdAnswer query rows))
        { store.setRows id (store.kept id query ++ rows) with nextKey }
  | refuses {error : AdapterError} {nextKey : Nat} (hm : query.method.createsRecords = true)
      (hs : store.staged unique id query = (.error error, nextKey)) :
      Executes sort unique id query store (.error error)
        { store.setRows id (store.kept id query) with nextKey }
  | finds (hm : query.method = .find) :
      Executes sort unique id query store (.ok (store.find sort id query)) store
  | findsOne (hm : query.method = .findOne) :
      Executes sort unique id query store (store.findOne id query) store
  | counts (hm : query.method = .count) :
      Executes sort unique id query store (.ok (store.count id query)) store
  | updates (hm : query.method = .update)
      (hc : updateClash? (uniqueColumns unique id.table) query [] (store.rows id) = none) :
      Executes sort unique id query store
        (.ok (fetched query (((store.rows id).filter query.selects).map (updateRow query))))
        (store.setRows id ((store.rows id).map (updateRow query)))
  | clashes {column : String} (hm : query.method = .update)
      (hc : updateClash? (uniqueColumns unique id.table) query [] (store.rows id) = some column) :
      Executes sort unique id query store (.error (notUnique column)) store
  | destroys (hm : query.method = .destroy) :
      Executes sort unique id query store
        (.ok (fetched query ((store.rows id).filter query.selects)))
        (store.setRows id ((store.rows id).filter (fun row => !query.selects row)))
  | replaces (hm : query.method = .replaceCollection) :
      Executes sort unique id query store (.ok none) (store.replaceCollection id query)

private theorem create_cases (unique : List (String × String)) (id : TableId)
    (query : PhysicalQuery) (store : Store) :
    (∃ rows nextKey, store.staged unique id query = (.ok rows, nextKey) ∧
      store.create unique id query = (.ok (createdAnswer query rows),
        { store.setRows id (store.kept id query ++ rows) with nextKey })) ∨
    ∃ error nextKey, store.staged unique id query = (.error error, nextKey) ∧
      store.create unique id query = (.error error,
        { store.setRows id (store.kept id query) with nextKey }) := by
  rcases h : store.staged unique id query with ⟨error | rows, nextKey⟩
  · exact .inr ⟨error, nextKey, rfl, by simp only [create, h]⟩
  · exact .inl ⟨rows, nextKey, rfl, by simp only [create, h]⟩

private theorem executes_create (sort : RowSort) (unique : List (String × String)) (id : TableId)
    (query : PhysicalQuery) (store : Store) (hm : query.method.createsRecords = true) :
    Executes sort unique id query store (store.create unique id query).1
      (store.create unique id query).2 := by
  rcases create_cases unique id query store with ⟨rows, nextKey, hs, hc⟩ | ⟨error, nextKey, hs, hc⟩
  · rw [hc]
    exact .creates hm hs
  · rw [hc]
    exact .refuses hm hs

/-- Each query does what its method says. -/
theorem executes (sort : RowSort) (unique : List (String × String)) (datastore : String)
    (query : PhysicalQuery) (store : Store) :
    Executes sort unique ⟨datastore, query.table⟩ query store
      (store.execute sort unique datastore query).1
      (store.execute sort unique datastore query).2 := by
  have hcreate := executes_create sort unique ⟨datastore, query.table⟩ query store
  unfold execute
  cases hm : query.method with
  | create | createEach | normalizeEach =>
    rw [hm] at hcreate
    exact hcreate rfl
  | find => exact .finds hm
  | findOne => exact .findsOne hm
  | count => exact .counts hm
  | update =>
    simp only [update]
    split
    · rename_i column hc
      exact .clashes hm hc
    · rename_i hc
      exact .updates hm hc
  | destroy => exact .destroys hm
  | replaceCollection => exact .replaces hm

theorem executes_after (sort : RowSort) (unique : List (String × String)) (store : Store)
    (step : Step) :
    Executes sort unique step.table step.query store
      (store.execute sort unique step.datastore step.query).1 (store.after sort unique step) :=
  executes sort unique step.datastore step.query store

/-- A query that fails leaves the store alone, unless it was to store new records: then the rows
that would have stood beside them stay. -/
theorem execute_error_cases {datastore : String} {query : PhysicalQuery} {next : Store}
    {error : AdapterError}
    (h : store.execute sort unique datastore query = (.error error, next)) :
    (query.method.createsRecords = false ∧ next = store) ∨
      ∃ nextKey, next = { store.setRows ⟨datastore, query.table⟩
        (store.kept ⟨datastore, query.table⟩ query) with nextKey } := by
  have hexecutes := executes sort unique datastore query store
  rw [h] at hexecutes
  dsimp only at hexecutes
  generalize hresult : (Except.error error : Except AdapterError Answer) = result at hexecutes
  cases hexecutes with
  | @refuses _ nextKey => exact .inr ⟨nextKey, rfl⟩
  | findsOne hm => exact .inl ⟨by rw [hm]; rfl, rfl⟩
  | clashes hm => exact .inl ⟨by rw [hm]; rfl, rfl⟩
  | creates | finds | counts | updates | destroys | replaces => cases hresult

end GraphRecords.Store
