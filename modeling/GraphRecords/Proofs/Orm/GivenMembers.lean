import GraphRecords.Proofs.Delivery.GivenMembers
import GraphRecords.Proofs.Orm.Calls
import GraphRecords.Proofs.Orm.Started
import GraphRecords.Proofs.Query.Validity
import GraphRecords.Proofs.Store.Steps

/-!
# Members given to a call

A call that stores new records links the members that each of them gives. A list of no members is
dropped on the way, so the row keeps the members that were stored under its key before.
-/

namespace GraphRecords

open Outcome

private theorem RecordRules.someMembers?_newRecord {rules : RecordRules}
    (hnamed : rules.model.AttributesNamed) {given record : Record}
    (h : rules.newRecord given = .ok record) {a : Attribute} (ha : a ∈ rules.model.collections) :
    record.someMembers? a.name = given.someMembers? a.name := by
  obtain ⟨hm, hcollection⟩ := List.mem_filter.mp ha
  have hfill : rules.fill? a = some (.arr []) := if_pos hcollection
  have hget := (newRecord_eq_ok hnamed h).2.2.get? a hm
  rw [hfill] at hget
  unfold Dict.someMembers? Dict.members
  rw [hget]
  cases given.get? a.name <;> rfl

namespace BoundModel

variable {m : BoundModel Store} {sort : RowSort} {unique : List (String × String)}
variable {bound : Option Nat}
variable {method : Method} {request : Request} {context : CallContext} {store : Store}

/-- The table of the model. -/
def table (m : BoundModel Store) : TableId := ⟨m.datastore.name, m.model.tableName⟩

/-- The rows that the records of a call are stored as. -/
def persisted (m : BoundModel Store) (unique : List (String × String)) (method : Method)
    (request : Request) (context : CallContext) (store : Store) : List Record :=
  match m.physical? method request context with
  | none => []
  | some query => store.persisted unique m.table query

/-- The row is stored, and its links are the members that the record gives, or what they were
where it gives none. -/
def Linked (m : BoundModel Store) (before after : Store) (given row : Record) : Prop :=
  row ∈ after.rows m.table ∧
    ∃ key, Store.keyOf? m.model.primaryKeyColumn row = some key ∧
      ∀ a ∈ m.model.collections, m.model.OwnsColumn a →
        after.members? (Store.linkId m.table key a.column) =
          (given.someMembers? a.name).or
            (before.members? (Store.linkId m.table key a.column))

private theorem forall₂_resets (hnamed : m.model.AttributesNamed)
    (hfound : m.schema.get? m.model.identity = some m.model)
    (hmethod : method.createsRecords = true) {physical : PhysicalQuery}
    (h : m.physical? method request context = some physical) :
    List.Forall₂ (fun given reset => ∀ a ∈ m.model.collections, m.model.OwnsColumn a →
        (m.delivery context).membersFor? reset a.column = given.someMembers? a.name)
      (request.given method) physical.resets := by
  obtain ⟨query, hnormalize, hcompile⟩ := physical?_eq_some h
  have hrecords := LogicalQuery.normalize_ready_given hmethod hnormalize
  obtain ⟨_, _, splits, hsplits, hresets⟩ := PhysicalQuery.compile_eq_ok hfound hcompile
  rw [hresets, List.forall₂_map_right_iff]
  refine (forall₂_comp hrecords hsplits).imp ?_
  rintro given split ⟨record, hrecord, hsplit⟩ a ha hown
  have hsplits := PhysicalQuery.splits_of_splitRecord hsplit
  have hmembers : (m.delivery context).membersFor? split.reset a.column =
      record.someMembers? a.name :=
    Delivery.membersFor?_of_splits (d := m.delivery context) hnamed hsplits ha hown
  rw [hmembers]
  exact RecordRules.someMembers?_newRecord hnamed hrecord ha

private theorem linked_of_query (hd : m.adapter = .memory sort unique bound)
    (hnamed : m.model.AttributesNamed) (hfound : m.schema.get? m.model.identity = some m.model)
    (hmethod : method.createsRecords = true) (hand : m.model.primaryKeyColumn ≠ "and")
    (hor : m.model.primaryKeyColumn ≠ "or") {physical : PhysicalQuery}
    (hq : m.physical? method request context = some physical) {answer : Answer}
    (hok : ((m.delivery context).run physical store).1 = .ok answer)
    (hkeys : Store.DistinctKeys m.model.primaryKeyColumn
      (store.persisted unique m.table physical)) :
    List.Forall₂ (m.Linked store ((m.delivery context).run physical store).2)
      (request.given method) (store.persisted unique m.table physical) := by
  have hcreates := physical?_creates hmethod hq
  have hdelivery : (m.delivery context).adapter = .memory sort unique bound := hd
  obtain ⟨query, _, hcompile⟩ := physical?_eq_some hq
  obtain ⟨htable, hprimaryKey, _⟩ := PhysicalQuery.compile_eq_ok hfound hcompile
  have hid : (m.delivery context).tableId physical = m.table := congrArg (TableId.mk _) htable
  have hlength := Delivery.length_persisted_of_run hdelivery hmethod hcreates hok
  rw [Delivery.run_creates hdelivery hmethod hcreates]
  rw [hid] at hlength ⊢
  rw [← hcreates.resets_length] at hlength
  rw [← hprimaryKey] at hand hor hkeys
  have hstored (row : Record) (hrow : row ∈ store.persisted unique m.table physical) :
      row ∈ (store.created unique m.table physical).rows m.table := by
    rw [Store.rows_created]
    exact List.mem_append_right _ hrow
  refine (forall₂_zip_of_forall₂ (forall₂_resets hnamed hfound hmethod hq) hlength).imp ?_
  rintro given row ⟨reset, hreset, hpair⟩
  have hrow := (List.of_mem_zip hpair).1
  obtain ⟨key, hkey⟩ := Store.exists_keyOf?_of_mem_persisted hrow
  refine ⟨?_, key, hprimaryKey ▸ hkey, ?_⟩
  · rw [Delivery.rows_foldl_link]
    exact hstored row hrow
  · intro a ha hown
    have hzip : ((store.persisted unique m.table physical).zip physical.resets).map Prod.fst =
        store.persisted unique m.table physical := List.map_fst_zip hlength.le
    have hlinks := Delivery.members?_foldl_link_own (d := m.delivery context) hand hor
      (hzip.symm ▸ hkeys) (fun pair hm => hid ▸ hstored pair.1 (List.of_mem_zip hm).1) hpair hkey
      a.column
    rw [hid, hreset a ha hown, Store.members?_created] at hlinks
    exact hlinks

/-- After a call that stores new records under different strings and numbers, each row has the
members that its record gives. A list that is left out, null or empty changes no members. -/
theorem run_links_given (setup : Setup Store) (sort : RowSort) (unique : List (String × String))
    (bound : Option Nat)
    (hmemory : ∀ entry ∈ setup.datastores.entries, entry.2.adapter = .memory sort unique bound)
    (hordered : ∀ d ∈ setup.definitions, d.attributes.Ordered) (orm : Orm Store)
    (hstart : setup.start = .ok orm) (identity : String) (m : BoundModel Store)
    (hm : orm.model identity = .ok m) (hooks : m.callbacks = {})
    (hand : m.model.primaryKeyColumn ≠ "and") (hor : m.model.primaryKeyColumn ≠ "or")
    (method : Method) (hmethod : method.createsRecords = true) (request : Request)
    (context : CallContext) (store : Store) (answer : Answer)
    (hok : (m.run method request context store).result = .ok answer)
    (hkeys : Store.DistinctKeys m.model.primaryKeyColumn
      (m.persisted unique method request context store)) :
    List.Forall₂ (m.Linked store (m.run method request context store).state)
      (request.given method) (m.persisted unique method request context store) := by
  have hstarted := Setup.started_of_start hstart hm
  obtain ⟨entry, hentry, hadapter⟩ := hstarted.registered
  obtain ⟨d, hd, hresolve⟩ := hstarted.resolved
  have hnamed := (Definition.resolvesTo_of_resolve hresolve).attributesNamed (hordered d hd)
  rw [run_state hooks]
  unfold persisted at hkeys ⊢
  rcases run_ok_cases hooks hok with ⟨hnone, reason, result, hnoop⟩ | ⟨physical, hq, hrun⟩
  · rw [hnone, LogicalQuery.normalize_noop_given hmethod hnoop]
    exact .nil
  · rw [hq] at hkeys ⊢
    exact linked_of_query (hadapter.trans (hmemory entry hentry)) hnamed hstarted.found hmethod
      hand hor hq hrun hkeys

private def ownedSetup (primaryKey : String) (attributes : List (String × Json)) : Setup Store where
  datastores := ⟨[("default", { adapter := .memory .inserting [] none })]⟩
  definitions := [
    { identity := some "pet", primaryKey := some primaryKey, attributes := ⟨attributes⟩ },
    { identity := some "toy" }]

private def toys (column : String) : Json :=
  .obj ⟨[("collection", .str "toy"), ("columnName", .str column)]⟩

private def ownedContext (method : Method) : CallContext where
  requestId := 1
  method := method
  identity := "pet"
  datastore := "default"
  madeAt := ⟨0, 0⟩

private def ownedRequest (records : List Record) : Request where
  newRecords := some (.arr (records.map .obj))

private def ownedQuery (method : Method) : PhysicalQuery where
  method := method
  table := "pet"
  identity := "pet"
  primaryKey := "id"
  newRecords := [⟨[("id", Json.nat 1)]⟩]
  valuesToSet := some ⟨[("toys", .arr [Json.nat 7])]⟩

/-- A pet of key 1 with toy 7. -/
private def ownedStore : Store :=
  (Store.execute .inserting [] "default" (ownedQuery .replaceCollection)
    (Store.execute .inserting [] "default" (ownedQuery .create) {}).2).2

private def twoPets : Request :=
  ownedRequest [⟨[("id", Json.nat 2), ("toys", .arr [Json.nat 8])]⟩,
    ⟨[("id", .str "rex"), ("toys", .arr [Json.nat 9, Json.nat 7])]⟩]

/-- Two pets, one under a number and one under a string, get their own toys. -/
theorem run_links_given_two_pets :
    ∃ orm m, (ownedSetup "id" [("toys", toys "toys")]).start = .ok orm ∧
      orm.model "pet" = .ok m ∧
      List.Forall₂
        (m.Linked ownedStore
          (m.run .createEach twoPets (ownedContext .createEach) ownedStore).state)
        (twoPets.given .createEach)
        (m.persisted [] .createEach twoPets (ownedContext .createEach) ownedStore) :=
  ⟨_, _, rfl, rfl, run_links_given (ownedSetup "id" [("toys", toys "toys")]) .inserting [] none
    (by simp [ownedSetup]) (by decide) _ rfl "pet" _ rfl rfl (by decide) (by decide) .createEach
    rfl twoPets (ownedContext .createEach) ownedStore _ rfl (by decide)⟩

/-- A pet stored anew without toys has the toys of the old one. -/
theorem empty_list_keeps_links :
    ¬ ∀ (setup : Setup Store) (sort : RowSort) (unique : List (String × String))
      (bound : Option Nat) (orm : Orm Store) (identity : String) (m : BoundModel Store)
      (method : Method) (request : Request) (context : CallContext) (store : Store)
      (answer : Answer),
      (∀ entry ∈ setup.datastores.entries, entry.2.adapter = .memory sort unique bound) →
      (∀ d ∈ setup.definitions, d.attributes.Ordered) → setup.start = .ok orm →
      orm.model identity = .ok m → m.callbacks = {} → method.createsRecords = true →
      Store.Reachable sort unique store →
      (m.run method request context store).result = .ok answer →
      Store.DistinctKeys m.model.primaryKeyColumn
        (m.persisted unique method request context store) →
      List.Forall₂ (fun given row => ∃ key,
          Store.keyOf? m.model.primaryKeyColumn row = some key ∧
          ∀ a ∈ m.model.collections,
            ((m.run method request context store).state.members?
              (Store.linkId m.table key a.column)).getD [] = given.members a.name)
        (request.given method) (m.persisted unique method request context store) := by
  intro h
  have hlinks := h (ownedSetup "id" [("toys", toys "toys")]) .inserting [] none _ "pet" _
    .normalizeEach (ownedRequest [⟨[("id", Json.nat 1), ("toys", .arr [])]⟩])
    (ownedContext .normalizeEach) ownedStore _ (by simp [ownedSetup]) (by decide) rfl rfl rfl rfl
    (.execute _ _ (.execute _ _ .empty)) rfl (by decide)
  obtain ⟨⟨key, hkey, hmembers⟩, _⟩ := List.forall₂_cons.mp hlinks
  cases hkey
  exact absurd (congrArg List.length (hmembers _ List.mem_cons_self)) (by decide)

/-- A key column called `or` finds no row, so nothing is linked. -/
example : ∃ orm m, (ownedSetup "or" [("toys", toys "toys")]).start = .ok orm ∧
    orm.model "pet" = .ok m ∧
    (m.run .createEach (ownedRequest [⟨[("or", Json.nat 1), ("toys", .arr [Json.nat 7])]⟩])
      (ownedContext .createEach) {}).state.links = [] :=
  ⟨_, _, rfl, rfl, rfl⟩

/-- Of two lists for one column, the second is linked. -/
example : ∃ orm m, (ownedSetup "id" [("balls", toys "toys"), ("bones", toys "toys")]).start =
      .ok orm ∧ orm.model "pet" = .ok m ∧
    (m.run .createEach
      (ownedRequest [⟨[("balls", .arr [Json.nat 7]), ("bones", .arr [Json.nat 8]),
        ("id", Json.nat 1)]⟩])
      (ownedContext .createEach) {}).state.members? (Store.linkId m.table (Json.nat 1) "toys") =
      some [Json.nat 8] :=
  ⟨_, _, rfl, rfl, rfl⟩

end BoundModel

end GraphRecords
