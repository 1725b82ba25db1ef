import GraphRecords.Proofs.Store.Staging

/-!
# Queries that fail

A failed query never touches members or another table. The rows of its own table stay as they
were, except that a batch which replaces rows by key takes those rows away before it is checked.
-/

namespace GraphRecords

/-- The query takes rows away to store its batch: one of them holds a key of the batch. -/
def PhysicalQuery.Replaces (query : PhysicalQuery) (rows : List Record) : Prop :=
  query.method = .normalizeEach ∧ ∃ row ∈ rows, ∃ record ∈ query.newRecords, ∃ key given,
    row.get? query.primaryKey = some key ∧ Store.keyOf? query.primaryKey record = some given ∧
      (key == given) = true

namespace Store

private theorem withoutKeys_eq_self_iff (primaryKey : String) (batch rows : List Record) :
    withoutKeys primaryKey batch rows = rows ↔
      ¬ ∃ row ∈ rows, ReplacedBy primaryKey batch row := by
  constructor
  · rintro h ⟨row, hrow, hreplaced⟩
    rw [← h] at hrow
    exact (mem_withoutKeys_iff.mp hrow).2 hreplaced
  · intro h
    apply List.filter_eq_self.mpr
    intro row hrow
    have hkept := mem_withoutKeys_iff.mpr ⟨hrow, fun hreplaced => h ⟨row, hrow, hreplaced⟩⟩
    exact (List.mem_filter.mp hkept).2

private theorem kept_eq_rows_iff (id : TableId) (query : PhysicalQuery) (store : Store) :
    store.kept id query = store.rows id ↔ ¬ query.Replaces (store.rows id) := by
  by_cases hm : query.method = .normalizeEach
  · rw [kept, if_pos hm, withoutKeys_eq_self_iff]
    simp only [PhysicalQuery.Replaces, ReplacedBy, hm, true_and]
  · rw [kept, if_neg hm]
    exact ⟨fun _ hr => hm hr.1, fun _ => rfl⟩

/-- A failed query changes at most the rows of its own table, and it leaves these as they were
exactly when it was not about to replace any of them. -/
theorem execute_error_sameContents_iff (sort : RowSort) (unique : List (String × String))
    (datastore : String) (query : PhysicalQuery) (store next : Store) (error : AdapterError)
    (h : store.execute sort unique datastore query = (.error error, next)) :
    (∀ link, next.members? link = store.members? link) ∧
      (∀ id, id ≠ ⟨datastore, query.table⟩ → next.rows id = store.rows id) ∧
      (SameContents next store ↔ ¬ query.Replaces (store.rows ⟨datastore, query.table⟩)) := by
  rw [← kept_eq_rows_iff]
  rcases execute_error_cases h with ⟨hm, rfl⟩ | ⟨nextKey, rfl⟩
  · have hkept : next.kept ⟨datastore, query.table⟩ query =
        next.rows ⟨datastore, query.table⟩ := by
      rw [kept, if_neg]
      intro he
      rw [he] at hm
      cases hm
    exact ⟨fun _ => rfl, fun _ _ => rfl, fun _ => hkept, fun _ => .refl next⟩
  · have hrows (id : TableId) :
        Store.rows { store.setRows ⟨datastore, query.table⟩
          (store.kept ⟨datastore, query.table⟩ query) with nextKey } id =
        if id = ⟨datastore, query.table⟩ then store.kept ⟨datastore, query.table⟩ query
          else store.rows id :=
      rows_setRows store ⟨datastore, query.table⟩ id _
    refine ⟨fun _ => rfl, ?_, ?_, ?_⟩
    · intro id hid
      rw [hrows, if_neg hid]
    · intro hs
      have hid := hs.rows ⟨datastore, query.table⟩
      rwa [hrows, if_pos rfl] at hid
    · intro hkept
      refine ⟨fun id => ?_, fun _ => rfl⟩
      rw [hrows, hkept]
      split
      · rename_i hid
        rw [hid]
      · rfl

private def pet (key : Nat) (name : String) : Record :=
  ⟨[("id", Json.nat key), ("name", .str name)]⟩

private def petBatch (method : Method) (records : List Record) : PhysicalQuery where
  method := method
  table := "pets"
  identity := "pet"
  primaryKey := "id"
  newRecords := records

private def twoPets : Store :=
  (Store.execute .inserting [("pets", "name")] "default"
    (petBatch .createEach [pet 1 "Rex", pet 2 "Tom"]) {}).2

/-- The second record of a batch fails and the first one, already checked, is not stored. -/
theorem execute_error_sameContents_batch :
    ∃ next, twoPets.execute .inserting [("pets", "name")] "default"
        (petBatch .createEach [pet 3 "Ada", pet 4 "Tom"]) = (.error (notUnique "name"), next) ∧
      SameContents next twoPets :=
  ⟨_, rfl, (execute_error_sameContents_iff .inserting [("pets", "name")] "default"
    (petBatch .createEach [pet 3 "Ada", pet 4 "Tom"]) twoPets _ (notUnique "name") rfl).2.2.mpr
      (fun hr => nomatch hr.1)⟩

/-- A batch that gives the first pet the name of the second fails, and the first pet is gone. -/
theorem failed_replacement_drops_row :
    ¬ ∀ (sort : RowSort) (unique : List (String × String)) (datastore : String)
      (query : PhysicalQuery) (store next : Store) (error : AdapterError),
      Reachable sort unique store →
      store.execute sort unique datastore query = (.error error, next) →
      SameContents next store := by
  intro h
  have hs := h .inserting [("pets", "name")] "default" (petBatch .normalizeEach [pet 1 "Tom"])
    twoPets _ (notUnique "name") (.execute _ _ .empty) rfl
  have hlength := congrArg List.length (hs.rows ⟨"default", "pets"⟩)
  exact absurd hlength (by decide)

end Store

end GraphRecords
