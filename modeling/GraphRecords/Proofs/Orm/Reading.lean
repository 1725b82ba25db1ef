import GraphRecords.Proofs.Delivery.Links
import GraphRecords.Proofs.Orm.Effects
import GraphRecords.Proofs.Orm.Started
import GraphRecords.Proofs.Query.Reading
import GraphRecords.Proofs.Store.Steps

/-!
# Calls that read

What `find`, `findOne` and `count` settle with, all in terms of the rows that their criteria ask
for. `findOne` tells the same as `find`. `count` does so unless a limit or a skip cuts rows off,
which it takes and passes over.
-/

namespace GraphRecords

open Outcome

/-- The query that reads what criteria ask for; the three methods read the same rows. -/
def Model.readQuery (model : Model) (method : Method) (criteria : Criteria) (callMeta : Meta) :
    PhysicalQuery where
  method := method
  table := model.tableName
  identity := model.identity
  primaryKey := model.primaryKeyColumn
  criteria := some ((criteria.mergeBindings model.bindings).lower model.columns)
  callMeta := callMeta
  fetchRequested := callMeta.fetch

private theorem PhysicalQuery.compile_reads {schema : Schema} {model : Model}
    (hfound : schema.get? model.identity = some model) (method : Method) (criteria : Criteria)
    (callMeta : Meta) :
    compile schema model.identity {
        method, identity := model.identity, callMeta,
        criteria := some (criteria.mergeBindings model.bindings) } =
      .ok (model.readQuery method criteria callMeta) := by
  rw [compile, hfound]
  rfl

namespace BoundModel

variable {m : BoundModel Store} {sort : RowSort} {unique : List (String × String)}
variable {bound : Option Nat}
variable {method : Method} {request : Request} {context : CallContext} {store : Store}
variable {callMeta : Meta} {criteria : Criteria}

private theorem hook?_of_reads {query : LogicalQuery} (hm : query.method.Reads)
    (callbacks : Callbacks) :
    query.hook? callbacks = none := by
  unfold LogicalQuery.hook?
  split
  · rfl
  · have hnone : query.method.beforeHook = none := by
      cases hmethod : query.method <;> simp_all [Method.Reads, Method.beforeHook]
    rw [hnone]
    rfl

private theorem prepare_reads (hfound : m.schema.get? m.model.identity = some m.model)
    (hm : method.Reads) (hmeta : Meta.ofJson request.callMeta = .ok callMeta)
    (hcriteria : Criteria.normalize method m.model request.criteria = .ok criteria)
    (context : CallContext) :
    m.prepare method request context =
      (if criteria.isNever then .settled (.ok (noopResult method callMeta.fetch))
        else .query (m.model.readQuery method criteria callMeta), {}) := by
  have hnormalize : LogicalQuery.normalize (m.rules context.madeAt) method request =
      .ok (LogicalQuery.selecting m.model { method, identity := m.model.identity, callMeta }
        criteria) :=
    (LogicalQuery.normalize_reads_eq_ok_iff hm).mpr ⟨callMeta, criteria, hmeta, hcriteria, rfl⟩
  rw [prepare, hnormalize, LogicalQuery.selecting]
  cases criteria.isNever with
  | true => rfl
  | false =>
    have hbefore (query : LogicalQuery) (hq : query.method = method) :
        query.runBefore m.callbacks m.hookBound = (.ok query, {}) := by
      rw [LogicalQuery.runBefore, hook?_of_reads (hq ▸ hm)]
    simp only [Bool.false_eq_true, if_false, hbefore, PhysicalQuery.compile_reads hfound]

private theorem proceed_readQuery (hd : m.adapter = .memory sort unique bound) (method : Method)
    (criteria : Criteria) (callMeta : Meta) (context : CallContext) (store : Store) :
    let query := m.model.readQuery method criteria callMeta
    m.proceed context store (.query query, {}) =
      ⟨((store.execute sort unique m.datastore.name query).1.mapError
        (m.delivery context).fault).map (Delivery.settle m.model query), {},
        (store.execute sort unique m.datastore.name query).2⟩ := by
  intro query
  have hdelivery : (m.delivery context).adapter = .memory sort unique bound := hd
  have hresets : query.hasResets = false := rfl
  have hrun := Delivery.run_of_not_hasResets hdelivery hresets store
  have hname : (m.delivery context).datastore.name = m.datastore.name := rfl
  simp only [proceed, hrun, hname]
  cases (store.execute sort unique m.datastore.name query).1 <;> rfl

/-- A call that reads settles at once where its criteria ask for nothing, and else with what the
store answers to its query. -/
theorem run_reads (hd : m.adapter = .memory sort unique bound)
    (hfound : m.schema.get? m.model.identity = some m.model) (hm : method.Reads)
    (hmeta : Meta.ofJson request.callMeta = .ok callMeta)
    (hcriteria : Criteria.normalize method m.model request.criteria = .ok criteria)
    (context : CallContext) (store : Store) :
    (m.run method request context store).result =
      if criteria.isNever then .ok (noopResult method callMeta.fetch)
      else match (store.execute sort unique m.datastore.name
          (m.model.readQuery method criteria callMeta)).1 with
        | .error error => .error ((m.delivery context).fault error)
        | .ok answer => .ok (answer.map (Delivery.raise m.model)) := by
  rw [run_eq_proceed, prepare_reads hfound hm hmeta hcriteria]
  cases criteria.isNever with
  | true => rfl
  | false =>
    have hcreates : (m.model.readQuery method criteria callMeta).method.createsRecords = false := by
      cases method <;> simp_all [Method.Reads, Method.createsRecords, Model.readQuery]
    simp only [Bool.false_eq_true, if_false, proceed_readQuery hd]
    cases (store.execute sort unique m.datastore.name
        (m.model.readQuery method criteria callMeta)).1 with
    | error error => rfl
    | ok answer => exact congrArg Except.ok (Delivery.settle_of_not_creates hcreates _ answer)

theorem state_run_reads (hd : m.adapter = .memory sort unique bound)
    (hfound : m.schema.get? m.model.identity = some m.model) (hm : method.Reads)
    (hmeta : Meta.ofJson request.callMeta = .ok callMeta)
    (hcriteria : Criteria.normalize method m.model request.criteria = .ok criteria)
    (context : CallContext) (store : Store) :
    (m.run method request context store).state = store := by
  rw [run_eq_proceed, prepare_reads hfound hm hmeta hcriteria]
  cases criteria.isNever with
  | true => rfl
  | false =>
    simp only [Bool.false_eq_true, if_false, proceed_readQuery hd]
    cases method with
    | find | findOne | count => rfl
    | create | createEach | normalizeEach | update | destroy | replaceCollection =>
      simp [Method.Reads] at hm

/-- The rows that criteria ask for, in stored order. -/
def asked (m : BoundModel Store) (criteria : Criteria) (store : Store) : List Record :=
  if criteria.isNever then []
  else store.matching ⟨m.datastore.name, m.model.tableName⟩ (m.model.readQuery .find criteria {})

/-- What is shown of a row. -/
def shown (m : BoundModel Store) (criteria : Criteria) (row : Record) : Json :=
  .obj (m.model.columns.raiseRecord ((m.model.readQuery .find criteria {}).project row))

/-- The rows that criteria ask for, sorted, as far as they are on the page. -/
def listed (sort : RowSort) (m : BoundModel Store) (criteria : Criteria) (store : Store) :
    List Record :=
  let query := m.model.readQuery .find criteria {}
  query.page (query.sortRows sort (m.asked criteria store))

theorem length_listed (sort : RowSort) (m : BoundModel Store) (criteria : Criteria)
    (store : Store) : (m.listed sort criteria store).length =
      criteria.pageLength (m.asked criteria store).length := by
  rw [listed, PhysicalQuery.length_page rfl, PhysicalQuery.length_sortRows,
    Criteria.pageLength_mergeBindings]

private theorem listed_of_unpaged (h : criteria.Unpaged) (sort : RowSort) (m : BoundModel Store)
    (store : Store) : m.listed sort criteria store = m.asked criteria store := by
  have hmerged := h.mergeBindings m.model.bindings
  have horders : (m.model.readQuery .find criteria {}).orders = [] :=
    PhysicalQuery.orders_of_unsorted rfl hmerged.sort
  rw [listed, PhysicalQuery.page_of_unpaged rfl hmerged,
    PhysicalQuery.sortRows_of_orders_eq_nil horders]

section Reads

variable (hd : m.adapter = .memory sort unique bound)
variable (hfound : m.schema.get? m.model.identity = some m.model)
variable (hmeta : Meta.ofJson request.callMeta = .ok callMeta)

include hd hfound hmeta

theorem run_find (hcriteria : Criteria.normalize .find m.model request.criteria = .ok criteria)
    (context : CallContext) (store : Store) :
    (m.run .find request context store).result =
      .ok (some (.arr ((m.listed sort criteria store).map (m.shown criteria)))) := by
  rw [run_reads hd hfound (by decide) hmeta hcriteria]
  unfold listed asked
  cases criteria.isNever with
  | true =>
    simp only [if_true]
    rw [PhysicalQuery.sortRows_nil, PhysicalQuery.page_nil]
    rfl
  | false =>
    simp only [Bool.false_eq_true, if_false]
    change Except.ok (some (Delivery.raise m.model (.arr _))) = _
    rw [Delivery.raise, List.map_map]
    rfl

private theorem run_findOne
    (hcriteria : Criteria.normalize .findOne m.model request.criteria = .ok criteria)
    (context : CallContext) (store : Store) :
    (m.run .findOne request context store).result =
      match m.asked criteria store with
      | [] => .ok none
      | [row] => .ok (some (m.shown criteria row))
      | rows => .error ((m.delivery context).fault (Store.severalFound rows.length)) := by
  rw [run_reads hd hfound (by decide) hmeta hcriteria, asked]
  cases criteria.isNever with
  | true => rfl
  | false =>
    have hexecute : (store.execute sort unique m.datastore.name
        (m.model.readQuery .findOne criteria callMeta)).1 =
        match store.matching ⟨m.datastore.name, m.model.tableName⟩
          (m.model.readQuery .find criteria {}) with
        | [] => .ok none
        | [row] => .ok (some (.obj ((m.model.readQuery .find criteria {}).project row)))
        | rows => .error (Store.severalFound rows.length) := rfl
    rw [hexecute]
    rcases store.matching ⟨m.datastore.name, m.model.tableName⟩
      (m.model.readQuery .find criteria {}) with _ | ⟨row, _ | ⟨other, rest⟩⟩ <;> rfl

private theorem run_count
    (hcriteria : Criteria.normalize .count m.model request.criteria = .ok criteria)
    (context : CallContext) (store : Store) :
    (m.run .count request context store).result =
      .ok (some (Json.nat (m.asked criteria store).length)) := by
  rw [run_reads hd hfound (by decide) hmeta hcriteria, asked]
  cases criteria.isNever with
  | true => rfl
  | false => rfl

end Reads

theorem accepted_reads (hm : method.Reads)
    (h : (LogicalQuery.normalize (m.rules context.madeAt) method request).isOk = true) :
    ∃ callMeta criteria, Meta.ofJson request.callMeta = .ok callMeta ∧
      Criteria.normalize method m.model request.criteria = .ok criteria := by
  cases hnormalize : LogicalQuery.normalize (m.rules context.madeAt) method request with
  | error error =>
    rw [hnormalize] at h
    cases h
  | ok normalized =>
    obtain ⟨callMeta, criteria, hmeta, hcriteria, _⟩ :=
      (LogicalQuery.normalize_reads_eq_ok_iff hm).mp hnormalize
    exact ⟨callMeta, criteria, hmeta, hcriteria⟩

/-- A call that counts agrees with the one that finds by the same criteria where nothing is
counted, or nothing is skipped and the limit is not passed. In general it counts the rows of all
pages, whatever page is asked for. -/
theorem count_eq_length_iff (setup : Setup Store) (sort : RowSort) (unique : List (String × String))
    (bound : Option Nat)
    (hmemory : ∀ entry ∈ setup.datastores.entries, entry.2.adapter = .memory sort unique bound)
    (orm : Orm Store) (hstart : setup.start = .ok orm) (identity : String) (m : BoundModel Store)
    (hm : orm.model identity = .ok m) (request : Request) (context findContext : CallContext)
    (store : Store)
    (haccepted : (LogicalQuery.normalize (m.rules context.madeAt) .count request).isOk = true) :
    ∃ criteria total items,
      Criteria.normalize .count m.model request.criteria = .ok criteria ∧
      (m.run .count request context store).result = .ok (some (Json.nat total)) ∧
      (m.run .find request findContext store).result = .ok (some (.arr items)) ∧
      items.length = criteria.pageLength total ∧
      (total = items.length ↔
        total = 0 ∨ criteria.skip = 0 ∧ ∀ limit ∈ criteria.limit, total ≤ limit) := by
  have hstarted := Setup.started_of_start hstart hm
  have hd := hstarted.adapter_eq hmemory
  obtain ⟨callMeta, criteria, hmeta, hcriteria⟩ := accepted_reads (by decide) haccepted
  have hfind := Criteria.normalize_eq_ok_of_allowed hcriteria .find rfl
  have hlength : ((m.listed sort criteria store).map (m.shown criteria)).length =
      criteria.pageLength (m.asked criteria store).length := by
    rw [List.length_map, length_listed]
  refine ⟨criteria, _, _, hcriteria, run_count hd hstarted.found hmeta hcriteria context store,
    run_find hd hstarted.found hmeta hfind findContext store, hlength, ?_⟩
  rw [hlength]
  exact criteria.eq_pageLength_iff _

private def readSetup : Setup Store where
  datastores := ⟨[("default", { adapter := .memory .inserting [] none })]⟩
  definitions := [{ identity := some "pet" }]

private def readContext (method : Method) : CallContext where
  requestId := 1
  method := method
  identity := "pet"
  datastore := "default"
  madeAt := ⟨0, 0⟩

private def clauses (fields : List (String × Json)) : Request where
  criteria := some (.obj ⟨fields⟩)

private def petOfKey (key : Nat) : Record := ⟨[("id", Json.nat key)]⟩

private def twoPetsQuery : PhysicalQuery where
  method := .createEach
  table := "pet"
  identity := "pet"
  primaryKey := "id"
  newRecords := [petOfKey 1, petOfKey 2]

private def petsRead : Store := (Store.execute .inserting [] "default" twoPetsQuery {}).2

/-- A limit that is not passed leaves both pets to be found. -/
theorem count_eq_length_iff_within_limit :
    ∃ orm m items, readSetup.start = .ok orm ∧ orm.model "pet" = .ok m ∧
      (m.run .find (clauses [("limit", Json.nat 2)]) (readContext .find) petsRead).result =
        .ok (some (.arr items)) ∧ items.length = 2 := by
  obtain ⟨criteria, total, items, hcriteria, hcount, hfind, _, hequal⟩ :=
    count_eq_length_iff readSetup .inserting [] none (by simp [readSetup]) _ rfl "pet" _ rfl
      (clauses [("limit", Json.nat 2)]) (readContext .count) (readContext .find) petsRead rfl
  refine ⟨_, _, items, rfl, rfl, hfind, ?_⟩
  cases hcriteria
  have htotal : some (Json.nat 2) = some (Json.nat total) := Except.ok.inj hcount
  have hint : (2 : Int) = total := by simpa [Json.nat] using htotal
  obtain rfl : 2 = total := by omega
  exact (hequal.mpr (by decide)).symm

/-- A limit of one shows one of two pets, and both are counted. -/
theorem count_passes_over_limit :
    ¬ ∀ (setup : Setup Store) (sort : RowSort) (unique : List (String × String))
      (bound : Option Nat) (orm : Orm Store) (identity : String) (m : BoundModel Store)
      (request : Request) (context findContext : CallContext) (store : Store) (total : Nat)
      (items : List Json),
      (∀ entry ∈ setup.datastores.entries, entry.2.adapter = .memory sort unique bound) →
      setup.start = .ok orm → orm.model identity = .ok m → Store.Reachable sort unique store →
      (LogicalQuery.normalize (m.rules context.madeAt) .count request).isOk = true →
      (m.run .count request context store).result = .ok (some (Json.nat total)) →
      (m.run .find request findContext store).result = .ok (some (.arr items)) →
      total = items.length := by
  intro h
  have hequal := h readSetup .inserting [] none _ "pet" _ (clauses [("limit", Json.nat 1)])
    (readContext .count) (readContext .find) petsRead 2 _ (by simp [readSetup]) rfl rfl
    (.execute _ _ .empty) rfl rfl (run_find rfl rfl rfl rfl _ _)
  rw [List.length_map, length_listed] at hequal
  exact absurd hequal (by decide)

/-- A call for one record agrees with the one for all records by the same criteria, which is
accepted too: it settles with nothing, with the one record or with an error of the adapter as the
other settles with none, with one or with more. -/
theorem findOne_iff_find (setup : Setup Store) (sort : RowSort) (unique : List (String × String))
    (bound : Option Nat)
    (hmemory : ∀ entry ∈ setup.datastores.entries, entry.2.adapter = .memory sort unique bound)
    (orm : Orm Store) (hstart : setup.start = .ok orm) (identity : String) (m : BoundModel Store)
    (hm : orm.model identity = .ok m) (request : Request) (context findContext : CallContext)
    (store : Store)
    (haccepted : (LogicalQuery.normalize (m.rules context.madeAt) .findOne request).isOk = true) :
    let one := (m.run .findOne request context store).result
    let many := (m.run .find request findContext store).result
    (LogicalQuery.normalize (m.rules findContext.madeAt) .find request).isOk = true ∧
      (∃ items, many = .ok (some (.arr items))) ∧
      (one = .ok none ↔ many = .ok (some (.arr []))) ∧
      (∀ record, one = .ok (some record) ↔ many = .ok (some (.arr [record]))) ∧
      ((∃ owner source,
          one = .error (.adapter .catchall owner source.message source context)) ↔
        ∃ items, many = .ok (some (.arr items)) ∧ 2 ≤ items.length) := by
  have hstarted := Setup.started_of_start hstart hm
  have hd := hstarted.adapter_eq hmemory
  obtain ⟨callMeta, criteria, hmeta, hcriteria⟩ := accepted_reads (by decide) haccepted
  have hfind := Criteria.normalize_eq_ok_of_allowed hcriteria .find rfl
  have hnormalize : LogicalQuery.normalize (m.rules findContext.madeAt) .find request = .ok _ :=
    (LogicalQuery.normalize_reads_eq_ok_iff (by decide)).mpr
      ⟨callMeta, criteria, hmeta, hfind, rfl⟩
  dsimp only
  rw [run_findOne hd hstarted.found hmeta hcriteria, run_find hd hstarted.found hmeta hfind,
    listed_of_unpaged (Criteria.unpaged_of_normalize hcriteria)]
  refine ⟨by rw [hnormalize]; rfl, ⟨_, rfl⟩, ?_⟩
  rcases m.asked criteria store with _ | ⟨row, _ | ⟨other, rest⟩⟩
  · simp
  · simp
  · refine ⟨by simp, by simp, ?_⟩
    constructor
    · intro _
      exact ⟨_, rfl, by simp⟩
    · intro _
      exact ⟨_, _, rfl⟩

/-- One pet is found alone as it is found in a list. -/
theorem findOne_iff_find_second_pet :
    ∃ orm m, readSetup.start = .ok orm ∧ orm.model "pet" = .ok m ∧
      (m.run .find (clauses [("id", Json.nat 2)]) (readContext .find) petsRead).result =
        .ok (some (.arr [.obj (petOfKey 2)])) := by
  have hagree := findOne_iff_find readSetup .inserting [] none (by simp [readSetup]) _ rfl "pet" _
    rfl (clauses [("id", Json.nat 2)]) (readContext .findOne) (readContext .find) petsRead rfl
  exact ⟨_, _, rfl, rfl, (hagree.2.2.2.1 (.obj (petOfKey 2))).mp rfl⟩

end BoundModel

end GraphRecords
