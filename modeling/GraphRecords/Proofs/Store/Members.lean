import GraphRecords.Proofs.Dict.Entries
import GraphRecords.Store.Execute

/-!
# Members of associations

Storing members gives every row that the query selects the members for each of the columns, in
place of those it had. Rows and the members of other rows stay as they are.
-/

namespace GraphRecords.Store

variable {id : TableId} {values : Record}

/-- The members that values give for a column. -/
def membersIn? (values : Record) (column : String) : Option (List Json) :=
  (values.get? column).map (fun value => value.toArray?.getD [])

private theorem rows_linkOwner (id : TableId) (values : Record) (store : Store) (owner : Json)
    (table : TableId) : (linkOwner id values store owner).rows table = store.rows table := by
  rw [linkOwner]
  induction values.entries generalizing store with
  | nil => rfl
  | cons entry rest ih => exact (ih _).trans (rows_setMembers ..)

private theorem members?_linkOwner (hv : values.Ordered) (store : Store) (owner : Json)
    (link : LinkId) :
    (linkOwner id values store owner).members? link =
      if link.table = id ∧ link.owner = owner.render then
        (membersIn? values link.column).or (store.members? link)
      else store.members? link := by
  obtain ⟨entries⟩ := values
  simp only [linkOwner, membersIn?, Dict.get?]
  induction entries generalizing store with
  | nil => simp [Dict.lookup]
  | cons entry rest ih =>
    obtain ⟨column, value⟩ := entry
    have hrest : column ∉ rest.map Prod.fst := (List.nodup_cons.mp hv.nodup_keys).1
    rw [List.foldl_cons, ih _ hv.tail, members?_setMembers]
    by_cases hlink : link.table = id ∧ link.owner = owner.render
    · rw [if_pos hlink, if_pos hlink, Dict.lookup]
      by_cases hcolumn : column = link.column
      · have heq : link = linkId id owner column := by
          rw [linkId, ← hlink.1, ← hlink.2, hcolumn]
        rw [if_pos hcolumn, if_pos heq, ← hcolumn, Dict.lookup_eq_none_iff.mpr hrest]
        rfl
      · have hne : link ≠ linkId id owner column := by
          intro he
          rw [he] at hcolumn
          exact hcolumn rfl
        rw [if_neg hcolumn, if_neg hne]
    · have hne : link ≠ linkId id owner column := by
        intro he
        rw [he] at hlink
        exact hlink ⟨rfl, rfl⟩
      rw [if_neg hlink, if_neg hlink, if_neg hne]

theorem rows_replaceCollection (id : TableId) (query : PhysicalQuery) (store : Store)
    (table : TableId) : (store.replaceCollection id query).rows table = store.rows table := by
  rw [replaceCollection]
  induction store.owners id query generalizing store with
  | nil => rfl
  | cons owner rest ih => exact (ih _).trans (rows_linkOwner ..)

private theorem members?_foldl_linkOwner (hv : values.Ordered) (owners : List Json)
    (store : Store) (link : LinkId) :
    (owners.foldl (linkOwner id values) store).members? link =
      if link.table = id ∧ link.owner ∈ owners.map Json.render then
        (membersIn? values link.column).or (store.members? link)
      else store.members? link := by
  induction owners generalizing store with
  | nil => simp
  | cons owner rest ih =>
    rw [List.foldl_cons, ih, members?_linkOwner hv]
    by_cases htable : link.table = id
    · by_cases howner : link.owner = owner.render
      · cases membersIn? values link.column <;> simp [htable, howner]
      · simp [htable, howner]
    · simp [htable]

theorem members?_replaceCollection {query : PhysicalQuery} (hv : (Store.values query).Ordered)
    (store : Store) (link : LinkId) :
    (store.replaceCollection id query).members? link =
      if link.table = id ∧ link.owner ∈ (store.owners id query).map Json.render then
        (membersIn? (Store.values query) link.column).or (store.members? link)
      else store.members? link :=
  members?_foldl_linkOwner hv (store.owners id query) store link

end GraphRecords.Store
