import GraphRecords.Proofs.Store.Frame
import GraphRecords.Proofs.Store.Selection

/-!
# Writes by filter

Destroying and updating by a filter are about the rows that finding by the same filter shows, with
every one of equal rows, and about nothing else.
-/

namespace GraphRecords.Store

/-- Finds the rows that a query is about: by its filter alone, all of them and whole. -/
def Step.finding (step : Step) : Step where
  datastore := step.datastore
  query :=
    { step.query with
      method := .find
      criteria := some (Json.object [("where", .obj step.query.filter)]) }

/-- The two stores differ at most in the rows of the table. -/
structure AgreesOutside (id : TableId) (a b : Store) : Prop where
  rows (other : TableId) (h : other ≠ id) : a.rows other = b.rows other
  members? (link : LinkId) : a.members? link = b.members? link

variable {sort : RowSort} {unique : List (String × String)} {store : Store}

private theorem agreesOutside_after (sort : RowSort) (unique : List (String × String))
    (store : Store) {step : Step} (h : step.query.method ≠ .replaceCollection) :
    AgreesOutside step.table (store.after sort unique step) store where
  rows _ hother := rows_after_of_ne hother
  members? link := members?_after_of_ne sort unique h store link

private theorem Step.filter_finding (step : Step) : step.finding.query.filter = step.query.filter :=
  PhysicalQuery.filter_of_clause? rfl

private theorem Step.selects_finding (step : Step) (row : Record) :
    step.finding.query.selects row = Filter.holdsFor step.query.filter row := by
  rw [PhysicalQuery.selects, step.filter_finding]

private theorem execute_finding (sort : RowSort) (unique : List (String × String)) (store : Store)
    (step : Step) :
    store.execute sort unique step.datastore step.finding.query =
      (.ok (some (.arr (((store.rows step.table).filter
        (Filter.holdsFor step.query.filter)).map .obj))), store) := by
  have horders : step.finding.query.orders = [] := rfl
  have hpage (rows : List Record) : step.finding.query.page rows = rows := rfl
  have hproject (row : Record) : step.finding.query.project row = row := rfl
  have hselects : step.finding.query.selects = Filter.holdsFor step.query.filter :=
    funext step.selects_finding
  change (Except.ok (store.find sort step.table step.finding.query), store) = _
  rw [find, PhysicalQuery.sortRows_of_orders_eq_nil horders, hpage, matching, hselects]
  simp only [hproject]

/-- Destroying takes away the rows that the filter holds for, and no others. -/
theorem Executes.of_destroy {id : TableId} {query : PhysicalQuery} {next : Store}
    {result : Except AdapterError Answer} (h : Executes sort unique id query store result next)
    (hm : query.method = .destroy) :
    result = .ok (fetched query ((store.rows id).filter query.selects)) ∧
      next.rows id = (store.rows id).filter (fun row => !query.selects row) := by
  cases h with
  | destroys => exact ⟨rfl, rows_setRows_self store id _⟩
  | creates hother | refuses hother =>
    rw [hm] at hother
    cases hother
  | finds hother | findsOne hother | counts hother | updates hother | clashes hother
  | replaces hother => cases hm.symm.trans hother

/-- An update that succeeds changes the rows that the filter holds for, each in its place. -/
theorem Executes.of_update {id : TableId} {query : PhysicalQuery} {next : Store}
    {result : Except AdapterError Answer} (h : Executes sort unique id query store result next)
    (hm : query.method = .update) {answer : Answer} (hok : result = .ok answer) :
    answer = fetched query (((store.rows id).filter query.selects).map (updateRow query)) ∧
      next.rows id = (store.rows id).map (updateRow query) := by
  cases h with
  | updates =>
    cases hok
    exact ⟨rfl, rows_setRows_self store id _⟩
  | clashes => cases hok
  | creates hother | refuses hother =>
    rw [hm] at hother
    cases hother
  | finds hother | findsOne hother | counts hother | destroys hother | replaces hother =>
    cases hm.symm.trans hother

/-- The rows that finding by a filter shows are those that destroying takes away and those that an
update overwrites, one by one and in order. All other rows, tables and members stay. -/
theorem execute_by_found_rows (sort : RowSort) (unique : List (String × String)) (store : Store)
    (step : Step) :
    ∃ found kept : List Record,
      (store.rows step.table).partition (Filter.holdsFor step.query.filter) = (found, kept) ∧
      store.execute sort unique step.datastore step.finding.query =
        (.ok (some (.arr (found.map .obj))), store) ∧
      (step.query.method = .destroy →
        (store.execute sort unique step.datastore step.query).1 = .ok (fetched step.query found) ∧
          (store.after sort unique step).rows step.table = kept ∧
          ((store.after sort unique step).execute sort unique step.datastore step.finding.query).1 =
            .ok (some (.arr [])) ∧
          AgreesOutside step.table (store.after sort unique step) store) ∧
      (step.query.method = .update → ∀ answer,
        (store.execute sort unique step.datastore step.query).1 = .ok answer →
          answer = fetched step.query (found.map (·.override (values step.query))) ∧
            (store.after sort unique step).rows step.table = (store.rows step.table).map (fun row =>
              if Filter.holdsFor step.query.filter row then row.override (values step.query)
              else row) ∧
            AgreesOutside step.table (store.after sort unique step) store) := by
  refine ⟨_, _, List.partition_eq_filter_filter .., execute_finding sort unique store step, ?_, ?_⟩
  · intro hm
    obtain ⟨hanswer, hrows⟩ := (executes_after sort unique store step).of_destroy hm
    refine ⟨hanswer, hrows, ?_, agreesOutside_after sort unique store (by rw [hm]; decide)⟩
    -- What is left is exactly what the filter does not hold for.
    have hnone : ((store.after sort unique step).rows step.table).filter
        (Filter.holdsFor step.query.filter) = [] := by
      rw [hrows, List.filter_filter]
      exact List.filter_eq_nil_iff.mpr fun row _ => by simp [PhysicalQuery.selects]
    rw [execute_finding, hnone]
    rfl
  · intro hm answer h
    obtain ⟨hanswer, hrows⟩ := (executes_after sort unique store step).of_update hm h
    refine ⟨hanswer.trans (congrArg _ ?_), hrows,
      agreesOutside_after sort unique store (by rw [hm]; decide)⟩
    apply List.map_congr_left
    intro row hrow
    exact if_pos (List.mem_filter.mp hrow).2

private def petOfAge (name : String) (age : Nat) : Record :=
  ⟨[("age", Json.nat age), ("name", .str name)]⟩

/-- Two pets that are alike, with another one between them. -/
private def twinPets : Store :=
  Store.setRows {} ⟨"default", "pets"⟩ [petOfAge "Rex" 3, petOfAge "Tom" 5, petOfAge "Rex" 3]

private def twinQuery (method : Method) (values : Record) : Step where
  datastore := "default"
  query :=
    { method, table := "pets", identity := "pet", primaryKey := "id"
      criteria := some (.obj ⟨[("where", .obj ⟨[("name", .str "Rex")]⟩)]⟩)
      valuesToSet := some values
      callMeta := { fetch := true } }

/-- Destroying by name takes away both of the pets that are alike and returns them, and an update
by name returns both as they are afterwards. -/
theorem execute_by_found_rows_twins :
    (twinPets.execute .inserting [] "default" (twinQuery .destroy {}).query).1 =
        .ok (some (.arr [.obj (petOfAge "Rex" 3), .obj (petOfAge "Rex" 3)])) ∧
      (twinPets.after .inserting [] (twinQuery .destroy {})).rows ⟨"default", "pets"⟩ =
        [petOfAge "Tom" 5] ∧
      (twinPets.after .inserting [] (twinQuery .update ⟨[("age", Json.nat 4)]⟩)).rows
          ⟨"default", "pets"⟩ =
        [petOfAge "Rex" 4, petOfAge "Tom" 5, petOfAge "Rex" 4] := by
  obtain ⟨found, kept, hpartition, _, hdestroy, _⟩ :=
    execute_by_found_rows .inserting [] twinPets (twinQuery .destroy {})
  obtain ⟨_, _, _, _, _, hupdate⟩ :=
    execute_by_found_rows .inserting [] twinPets (twinQuery .update ⟨[("age", Json.nat 4)]⟩)
  have hpair : (found, kept) =
      ([petOfAge "Rex" 3, petOfAge "Rex" 3], [petOfAge "Tom" 5]) := hpartition.symm
  cases hpair
  exact ⟨(hdestroy rfl).1, (hdestroy rfl).2.1, (hupdate rfl _ rfl).2.1⟩

end GraphRecords.Store
