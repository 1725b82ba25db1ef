import GraphRecords.Proofs.Filter.Matching
import GraphRecords.Proofs.Query.Reading
import GraphRecords.Proofs.Store.Steps

/-!
# Queries by filter

A query whose filter is seen to ask for nothing selects no row. It leaves the store as it is and is
answered with what a call with nothing to do settles with.
-/

namespace GraphRecords

namespace PhysicalQuery

theorem filter_of_clause? {query : PhysicalQuery} {filter : Record}
    (h : query.clause? "where" = some (.obj filter)) : query.filter = filter := by
  rw [PhysicalQuery.filter, h]
  rfl

private theorem selects_of_isNever {query : PhysicalQuery} (h : Filter.isNever query.filter = true)
    (row : Record) : query.selects row = false := Filter.holdsFor_of_isNever row h

private theorem filter_selects_of_isNever {query : PhysicalQuery}
    (h : Filter.isNever query.filter = true) (rows : List Record) :
    rows.filter query.selects = [] := by
  apply List.filter_eq_nil_iff.mpr
  intro row _
  rw [selects_of_isNever h]
  exact Bool.false_ne_true

private theorem filter_not_selects_of_isNever {query : PhysicalQuery}
    (h : Filter.isNever query.filter = true) (rows : List Record) :
    rows.filter (fun row => !query.selects row) = rows := by
  apply List.filter_eq_self.mpr
  intro row _
  rw [selects_of_isNever h, Bool.not_false]

end PhysicalQuery

namespace Store

variable {sort : RowSort} {unique : List (String × String)} {id : TableId} {query : PhysicalQuery}
variable {store : Store}

private theorem sameContents_setRows_self (id : TableId) (store : Store) :
    SameContents (store.setRows id (store.rows id)) store := by
  refine ⟨fun other => ?_, fun _ => rfl⟩
  rw [rows_setRows]
  split
  · rename_i hid
    rw [hid]
  · rfl

private theorem map_updateRow_of_isNever (h : Filter.isNever query.filter = true)
    (rows : List Record) :
    rows.map (updateRow query) = rows := by
  apply List.map_id''
  intro row
  rw [updateRow, PhysicalQuery.selects_of_isNever h, if_neg Bool.false_ne_true]

private theorem updateClash?_of_isNever (h : Filter.isNever query.filter = true)
    (columns : List String)
    (earlier rows : List Record) : updateClash? columns query earlier rows = none := by
  induction rows generalizing earlier with
  | nil => rfl
  | cons row rest ih =>
    rw [updateClash?, PhysicalQuery.selects_of_isNever h, if_neg Bool.false_ne_true]
    exact ih _

private theorem find_of_isNever (h : Filter.isNever query.filter = true) :
    store.find sort id query = some (.arr []) := by
  rw [find, matching, PhysicalQuery.filter_selects_of_isNever h, PhysicalQuery.sortRows_nil,
    PhysicalQuery.page_nil]
  rfl

/-- A filter that is seen to ask for nothing holds for no row. So a query by it changes no row and
no members, and is answered with what a call with nothing to do settles with. -/
theorem execute_of_isNever (filter : Record) (h : Filter.isNever filter = true) :
    (∀ row, Filter.holdsFor filter row = false) ∧
      ∀ (unique : List (String × String)) (datastore : String) (query : PhysicalQuery)
        (store : Store), query.clause? "where" = some (.obj filter) →
        query.method ∈ [.find, .findOne, .count, .update, .destroy] →
        (store.execute sort unique datastore query).1 =
            .ok (noopResult query.method query.callMeta.fetch) ∧
          SameContents (store.execute sort unique datastore query).2 store := by
  refine ⟨fun row => Filter.holdsFor_of_isNever row h, ?_⟩
  intro unique datastore query store hwhere hmethod
  have hnever : Filter.isNever query.filter = true := by
    rw [PhysicalQuery.filter_of_clause? hwhere]
    exact h
  have hnone := PhysicalQuery.filter_selects_of_isNever hnever
  have hcreates : query.method.createsRecords = false := by
    have hall : ∀ method ∈ [Method.find, .findOne, .count, .update, .destroy],
        method.createsRecords = false := by decide
    exact hall query.method hmethod
  have hexecutes := executes sort unique datastore query store
  generalize (store.execute sort unique datastore query).1 = result at hexecutes ⊢
  generalize (store.execute sort unique datastore query).2 = next at hexecutes ⊢
  cases hexecutes with
  | creates hm | refuses hm =>
    rw [hcreates] at hm
    cases hm
  | finds hm =>
    rw [hm, find_of_isNever hnever]
    exact ⟨rfl, .refl store⟩
  | findsOne hm =>
    rw [hm, findOne, matching, hnone]
    exact ⟨rfl, .refl store⟩
  | counts hm =>
    rw [hm, count, matching, hnone]
    exact ⟨rfl, .refl store⟩
  | updates hm =>
    rw [hm, hnone, List.map_nil, map_updateRow_of_isNever hnever]
    exact ⟨rfl, sameContents_setRows_self _ store⟩
  | clashes hm hc =>
    rw [updateClash?_of_isNever hnever] at hc
    cases hc
  | destroys hm =>
    rw [hm, hnone, PhysicalQuery.filter_not_selects_of_isNever hnever]
    exact ⟨rfl, sameContents_setRows_self _ store⟩
  | replaces hm =>
    rw [hm] at hmethod
    exact absurd hmethod (by decide)

/-- An `and` that only has to reach into the second of its branches: an `or` whose first branch asks
for a value in no list beside one above 0, and whose second has no branches itself. -/
private def nestedNever : Record :=
  ⟨[("and", .arr [.null, .obj ⟨[("or", .arr [
    .obj ⟨[("id", .obj ⟨[(">", Json.nat 0), ("in", .arr [])]⟩)]⟩, .obj ⟨[("or", .arr [])]⟩])]⟩])]⟩

private def unnamed (key : Nat) : Record := ⟨[("id", Json.nat key)]⟩

private def renameNone : PhysicalQuery where
  method := .update
  table := "pets"
  identity := "pet"
  primaryKey := "id"
  criteria := some (.obj ⟨[("where", .obj nestedNever)]⟩)
  valuesToSet := some ⟨[("name", .str "Rex")]⟩
  callMeta := { fetch := true }

private def onePet : Store := Store.setRows {} ⟨"default", "pets"⟩ [unnamed 1]

/-- An update by nested branches that ask for nothing fetches no pet and renames none. -/
theorem execute_of_isNever_nested : Filter.isNever nestedNever = true ∧
    (onePet.execute .inserting [("pets", "name")] "default" renameNone).1 = .ok (some (.arr [])) ∧
      SameContents (onePet.execute .inserting [("pets", "name")] "default" renameNone).2 onePet :=
  ⟨rfl, (execute_of_isNever nestedNever rfl).2 [("pets", "name")] "default" renameNone onePet rfl
    (by decide)⟩

end Store

end GraphRecords
