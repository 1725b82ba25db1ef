import GraphRecords.Proofs.Store.GeneratedKeys

/-!
# Batches

A batch of new records is checked as a whole and stored at once. That comes to the same as creating
its records one after another: each is checked against the rows before it, whether these are stored
already or only staged, and gets the same key.
-/

namespace GraphRecords

/-- The query that stores other records by another method, as it is in all else. -/
def PhysicalQuery.storing (query : PhysicalQuery) (method : Method) (records : List Record) :
    PhysicalQuery :=
  { query with method, newRecords := records }

namespace Store

/-- What queries are answered, each executed after the ones before, failed or not. -/
def answers (sort : RowSort) (unique : List (String × String)) :
    List Step → Store → List (Except AdapterError Answer)
  | [], _ => []
  | step :: rest, store =>
      (store.execute sort unique step.datastore step.query).1 :: answers sort unique rest
        (store.after sort unique step)

/-- A step for each record, which creates it alone. -/
def singles (datastore : String) (query : PhysicalQuery) (records : List Record) : List Step :=
  records.map fun record => ⟨datastore, query.storing .create [record]⟩

/-- Two stores show the same contents and go on to generate the same keys. -/
structure SameState (a b : Store) : Prop extends SameContents a b where
  nextKey : a.nextKey = b.nextKey

/-- The store with rows added behind those of a table, and another next key. -/
def extended (store : Store) (id : TableId) (rows : List Record) (nextKey : Nat) : Store :=
  { store.setRows id (store.rows id ++ rows) with nextKey }

section

variable {store : Store} {id : TableId} {rows : List Record} {nextKey : Nat}

private theorem rows_extended (other : TableId) :
    (store.extended id rows nextKey).rows other =
      if other = id then store.rows id ++ rows else store.rows other :=
  rows_setRows store id other _

private theorem rows_extended_self :
    (store.extended id rows nextKey).rows id = store.rows id ++ rows :=
  rows_setRows_self store id _

private theorem sameState_extended_nil : SameState (store.extended id [] store.nextKey) store where
  rows other := by
    rw [rows_extended, List.append_nil]
    split
    · rename_i hother
      rw [hother]
    · rfl
  members? _ := rfl
  nextKey := rfl

private theorem sameState_extended_extended (first second : List Record) (between nextKey : Nat) :
    SameState (store.extended id (first ++ second) nextKey)
      ((store.extended id first between).extended id second nextKey) where
  rows other := by
    rw [rows_extended, rows_extended, rows_extended_self, List.append_assoc, rows_extended]
    split
    · rfl
    · rfl
  members? _ := rfl
  nextKey := rfl

end

theorem SameState.trans {a b c : Store} (hab : SameState a b) (hbc : SameState b c) :
    SameState a c where
  rows id := (hab.rows id).trans (hbc.rows id)
  members? link := (hab.members? link).trans (hbc.members? link)
  nextKey := hab.nextKey.trans hbc.nextKey

section

variable {columns : List String} {primaryKey : String} {existing : List Record} {nextKey : Nat}

/-- New records are checked against staged rows as they are against stored ones. -/
private theorem stage_staged (staged records : List Record) :
    stage columns primaryKey existing staged nextKey records =
      ((stage columns primaryKey (existing ++ staged) [] nextKey records).1.map (staged ++ ·),
        (stage columns primaryKey (existing ++ staged) [] nextKey records).2) := by
  induction records generalizing existing staged nextKey with
  | nil => simp [stage, Except.map]
  | cons record rest ih =>
    rw [stage_cons, stage_cons, List.append_nil]
    split
    · rfl
    · rw [ih (staged ++ [rowOf primaryKey nextKey record]), List.nil_append,
        ih [rowOf primaryKey nextKey record], ← List.append_assoc]
      cases (stage columns primaryKey
        (existing ++ staged ++ [rowOf primaryKey nextKey record]) []
        (nextKey + keyless primaryKey [record]) rest).1 with
      | error => rfl
      | ok => simp [Except.map]

private theorem stage_nil_cons (record : Record) (rest : List Record) :
    stage columns primaryKey existing [] nextKey (record :: rest) =
      match stage columns primaryKey existing [] nextKey [record] with
      | (.error error, next) => (.error error, next)
      | (.ok rows, next) =>
          ((stage columns primaryKey (existing ++ rows) [] next rest).1.map (rows ++ ·),
            (stage columns primaryKey (existing ++ rows) [] next rest).2) := by
  rw [stage_cons, stage_cons]
  split
  · rfl
  · rw [stage_staged]
    rfl

end

section

variable {sort : RowSort} {unique : List (String × String)} {datastore : String}
variable {query : PhysicalQuery}
variable {store : Store} {records rows : List Record} {nextKey : Nat}

/-- New records as they are staged behind all the rows of a table. -/
def stagedBehind (unique : List (String × String)) (id : TableId) (query : PhysicalQuery)
    (records : List Record) (store : Store) : Except AdapterError (List Record) × Nat :=
  stage (uniqueColumns unique id.table) query.primaryKey (store.rows id) [] store.nextKey records

/-- A batch is staged as its first record is, and then as the others are once that is stored. -/
theorem stagedBehind_cons (id : TableId) (record : Record) (rest : List Record) :
    store.stagedBehind unique id query (record :: rest) =
      match store.stagedBehind unique id query [record] with
      | (.error error, next) => (.error error, next)
      | (.ok rows, next) =>
          (((store.extended id rows next).stagedBehind unique id query rest).1.map (rows ++ ·),
            ((store.extended id rows next).stagedBehind unique id query rest).2) := by
  simp only [stagedBehind, rows_extended_self]
  exact stage_nil_cons record rest

/-- What a single create answers. -/
def shownAlone (query : PhysicalQuery) (row : Record) : Answer :=
  if query.callMeta.fetch then some (.obj row) else none

private theorem execute_storing {method : Method} (hm : method = .create ∨ method = .createEach) :
    store.execute sort unique datastore (query.storing method records) =
      match store.stagedBehind unique ⟨datastore, query.table⟩ query records with
      | (.ok rows, next) => (.ok (createdAnswer (query.storing method records) rows),
          store.extended ⟨datastore, query.table⟩ rows next)
      | (.error error, next) =>
          (.error error, { store.setRows ⟨datastore, query.table⟩
            (store.rows ⟨datastore, query.table⟩) with nextKey := next }) := by
  rcases hm with rfl | rfl
  · rfl
  · rfl

private theorem execute_batch_stored
    (h : store.stagedBehind unique ⟨datastore, query.table⟩ query records = (.ok rows, nextKey)) :
    store.execute sort unique datastore (query.storing .createEach records) =
      (.ok (if query.callMeta.fetch then some (.arr (rows.map .obj)) else none),
        store.extended ⟨datastore, query.table⟩ rows nextKey) := by
  rw [execute_storing (.inr rfl), h]
  cases hfetch : query.callMeta.fetch with
  | true => simp [createdAnswer, PhysicalQuery.storing, hfetch]
  | false => simp [createdAnswer, PhysicalQuery.storing, hfetch]

private theorem execute_single_stored {record : Record}
    (h : store.stagedBehind unique ⟨datastore, query.table⟩ query [record] = (.ok rows, nextKey)) :
    ∃ row, rows = [row] ∧ store.execute sort unique datastore (query.storing .create [record]) =
      (.ok (shownAlone query row), store.extended ⟨datastore, query.table⟩ [row] nextKey) := by
  obtain ⟨rfl, _⟩ := stage_eq_ok_keyed h
  refine ⟨rowOf query.primaryKey store.nextKey record, rfl, ?_⟩
  rw [execute_storing (.inl rfl), h]
  cases hfetch : query.callMeta.fetch with
  | true => simp [createdAnswer, shownAlone, PhysicalQuery.storing, hfetch, keyed]
  | false => simp [createdAnswer, shownAlone, PhysicalQuery.storing, hfetch, keyed]

private theorem answers_singles_cons (record : Record) (rest : List Record) :
    answers sort unique (singles datastore query (record :: rest)) store =
      (store.execute sort unique datastore (query.storing .create [record])).1 ::
        answers sort unique (singles datastore query rest)
          (store.execute sort unique datastore (query.storing .create [record])).2 := rfl

private theorem run_singles_cons (record : Record) (rest : List Record) :
    run sort unique (singles datastore query (record :: rest)) store =
      run sort unique (singles datastore query rest)
        (store.execute sort unique datastore (query.storing .create [record])).2 := rfl

/-- Where a batch is accepted, each of its records is, after the ones before it; where it is
refused, one of them is. -/
theorem answers_singles (sort : RowSort) (unique : List (String × String)) (datastore : String)
    (query : PhysicalQuery) (records : List Record) (store : Store) :
    match store.stagedBehind unique ⟨datastore, query.table⟩ query records with
    | (.ok rows, nextKey) =>
        answers sort unique (singles datastore query records) store =
            rows.map (fun row => .ok (shownAlone query row)) ∧
          SameState (store.extended ⟨datastore, query.table⟩ rows nextKey)
            (run sort unique (singles datastore query records) store)
    | (.error error, _) =>
        .error error ∈ answers sort unique (singles datastore query records) store := by
  -- The store varies: the others are created, and staged, from the store that the first one leaves.
  induction records generalizing store with
  | nil => exact ⟨rfl, sameState_extended_nil⟩
  | cons record rest ih =>
    rw [answers_singles_cons, run_singles_cons, stagedBehind_cons]
    rcases hfirst : store.stagedBehind unique ⟨datastore, query.table⟩ query [record] with
      ⟨error | rows, between⟩
    · have hrefused : (store.execute sort unique datastore (query.storing .create [record])).1 =
          .error error := by rw [execute_storing (.inl rfl), hfirst]
      exact List.mem_cons.mpr (.inl hrefused.symm)
    · obtain ⟨row, rfl, hstored⟩ := execute_single_stored hfirst
      have hrest := ih (store.extended ⟨datastore, query.table⟩ [row] between)
      rw [hstored]
      dsimp only
      rcases hlater : (store.extended ⟨datastore, query.table⟩ [row] between).stagedBehind unique
        ⟨datastore, query.table⟩ query rest with ⟨error | later, nextKey⟩
      · rw [hlater] at hrest
        exact List.mem_cons_of_mem _ hrest
      · rw [hlater] at hrest
        exact ⟨congrArg (_ :: ·) hrest.1,
          (sameState_extended_extended [row] later between nextKey).trans hrest.2⟩

end

/-- A batch of new records is stored exactly when each of them can be created after the ones
before it. Both ways then lead to the same contents and the same next key, and the fetched batch
lists the records that are fetched by the single creates. -/
theorem execute_createEach_iff (sort : RowSort) (unique : List (String × String))
    (datastore : String) (query : PhysicalQuery) (records : List Record) (store : Store) :
    let batch := store.execute sort unique datastore (query.storing .createEach records)
    let steps := singles datastore query records
    (batch.1.isOk = true ↔ ∀ result ∈ answers sort unique steps store, result.isOk = true) ∧
      (batch.1.isOk = true →
        SameState batch.2 (run sort unique steps store) ∧
          (query.callMeta.fetch = true → ∃ rows : List Record,
            batch.1 = .ok (some (.arr (rows.map .obj))) ∧
              answers sort unique steps store = rows.map (fun row => .ok (some (.obj row))))) := by
  intro batch steps
  have hsingles := answers_singles sort unique datastore query records store
  rcases h : store.stagedBehind unique ⟨datastore, query.table⟩ query records with
    ⟨error | rows, nextKey⟩
  · have hbatch : batch.1 = .error error := by
      simp only [batch, execute_storing (.inr rfl), h]
    rw [h] at hsingles
    rw [hbatch]
    exact ⟨⟨nofun, fun hall => nomatch hall _ hsingles⟩, nofun⟩
  · have hbatch : batch = _ := execute_batch_stored h
    rw [h] at hsingles
    obtain ⟨hanswers, hstate⟩ := hsingles
    rw [hbatch, show answers sort unique steps store = _ from hanswers]
    refine ⟨⟨fun _ result hresult => ?_, fun _ => rfl⟩, fun _ => ⟨hstate, fun hfetch => ?_⟩⟩
    · obtain ⟨row, _, rfl⟩ := List.mem_map.mp hresult
      rfl
    · refine ⟨rows, ?_, ?_⟩
      · rw [if_pos hfetch]
      · simp only [shownAlone, if_pos hfetch]

end Store

end GraphRecords
