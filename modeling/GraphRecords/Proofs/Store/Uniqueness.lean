import GraphRecords.Proofs.Json.Equality
import GraphRecords.Proofs.Store.Members
import GraphRecords.Proofs.Store.Steps

/-!
# Unique columns

No two rows of a table hold the same value in a column of unique values. A new row is checked
against the rows that stand before it, an updated row against all others of its table, and rows
that go away leave no two that clash. So every query, failed ones included, keeps columns unique.
-/

namespace GraphRecords.Store

variable {sort : RowSort} {unique : List (String × String)} {id : TableId} {query : PhysicalQuery}
variable {store : Store}
variable {column : String} {columns : List String} {row other : Record} {rows : List Record}

private theorem sharesValue_comm (column : String) (row other : Record) :
    sharesValue column row other = sharesValue column other row := by
  unfold sharesValue
  cases row.get? column with
  | none => cases other.get? column <;> simp
  | some a =>
    cases other.get? column with
    | none => simp
    | some b =>
      simp only [Option.any_some]
      rw [Json.beq_comm b a]
      cases hab : a == b with
      | false => simp
      | true => rw [Json.isNull_of_beq hab]

private theorem beq_eq_false_of_sharesValue (h : sharesValue column row other = false) {a b : Json}
    (ha : row.get? column = some a) (hnull : a.isNull = false) (hb : other.get? column = some b) :
    (a == b) = false := by
  simp only [sharesValue, ha, hb, hnull, Option.any_some, Bool.not_false, Bool.true_and] at h
  rw [Json.beq_comm, h]

/-- No two of the rows hold the same value, not null, in the column. -/
def UniqueIn (column : String) (rows : List Record) : Prop :=
  rows.Pairwise fun row other => sharesValue column row other = false

private theorem clash?_eq_none_iff : clash? columns row rows = none ↔
    ∀ column ∈ columns, ∀ other ∈ rows, sharesValue column row other = false := by
  simp [clash?]

private theorem UniqueIn.concat (h : UniqueIn column rows)
    (hrow : ∀ other ∈ rows, sharesValue column row other = false) :
    UniqueIn column (rows ++ [row]) := by
  apply List.pairwise_append.mpr
  refine ⟨h, List.pairwise_singleton _ _, ?_⟩
  intro other hother new hnew
  rw [List.mem_singleton.mp hnew, sharesValue_comm]
  exact hrow other hother

private theorem uniqueIn_stage {primaryKey : String} {existing staged records : List Record}
    {nextKey next : Nat} (hcolumn : column ∈ columns) (h : UniqueIn column (existing ++ staged))
    (hs : stage columns primaryKey existing staged nextKey records = (.ok rows, next)) :
    UniqueIn column (existing ++ rows) := by
  induction records generalizing staged nextKey with
  | nil =>
    cases hs
    exact h
  | cons record rest ih =>
    simp only [stage] at hs
    split at hs
    · cases hs
    · rename_i hclash
      apply ih _ hs
      rw [← List.append_assoc]
      exact h.concat (clash?_eq_none_iff.mp hclash column hcolumn)

/-- Where no updated row clashes with another, updating keeps a column unique. The rows before
those that are left to check, already updated, clash with none of these that the query selects. -/
private theorem uniqueIn_updated {earlier : List Record} (hcolumn : column ∈ columns)
    (h : UniqueIn column rows) (hc : updateClash? columns query earlier rows = none) :
    UniqueIn column (rows.map (updateRow query)) ∧
      ∀ row ∈ rows, query.selects row = true → ∀ other ∈ earlier,
        sharesValue column (updateRow query row) other = false := by
  induction rows generalizing earlier with
  | nil => exact ⟨List.Pairwise.nil, nofun⟩
  | cons row rest ih =>
    obtain ⟨hrow, hrest⟩ := List.pairwise_cons.mp h
    simp only [updateClash?] at hc
    split at hc
    · cases hc
    · rename_i hclash
      obtain ⟨hupdated, hearlier⟩ := ih hrest hc
      have hselected (hs : query.selects row = true) (other : Record)
          (ho : other ∈ earlier ++ rest.map (updateRow query)) :
          sharesValue column (updateRow query row) other = false := by
        rw [if_pos hs] at hclash
        exact clash?_eq_none_iff.mp hclash column hcolumn other ho
      constructor
      · apply List.pairwise_cons.mpr
        refine ⟨?_, hupdated⟩
        intro next hnext
        by_cases hs : query.selects row = true
        · exact hselected hs next (List.mem_append_right _ hnext)
        · -- The row stays, so a clash would be one with a row that does not.
          obtain ⟨other, hother, rfl⟩ := List.mem_map.mp hnext
          by_cases ho : query.selects other = true
          · rw [sharesValue_comm]
            apply hearlier other hother ho
            exact List.mem_append_right _ List.mem_cons_self
          · rw [updateRow, updateRow, if_neg hs, if_neg ho]
            exact hrow other hother
      · intro updated hm hs other hother
        rcases List.mem_cons.mp hm with rfl | hm
        · exact hselected hs other (List.mem_append_left _ hother)
        · exact hearlier updated hm hs other (List.mem_append_left _ hother)

/-- Every unique column of every table, in whatever datastore, is unique. -/
def KeepsUnique (unique : List (String × String)) (store : Store) : Prop :=
  ∀ id : TableId, ∀ column ∈ uniqueColumns unique id.table, UniqueIn column (store.rows id)

theorem KeepsUnique.setRows (h : KeepsUnique unique store)
    (hrows : ∀ column ∈ uniqueColumns unique id.table, UniqueIn column rows) (nextKey : Nat) :
    KeepsUnique unique { store.setRows id rows with nextKey } := by
  intro other column hcolumn
  change UniqueIn column ((store.setRows id rows).rows other)
  rw [rows_setRows]
  split
  · rename_i hid
    rw [hid] at hcolumn
    exact hrows column hcolumn
  · exact h other column hcolumn

theorem UniqueIn.kept (h : UniqueIn column (store.rows id)) :
    UniqueIn column (store.kept id query) := by
  unfold Store.kept withoutKeys
  split
  · exact h.sublist List.filter_sublist
  · exact h

theorem KeepsUnique.execute (h : KeepsUnique unique store) (datastore : String)
    (query : PhysicalQuery) : KeepsUnique unique (store.execute sort unique datastore query).2 := by
  have hexecutes := executes sort unique datastore query store
  generalize (store.execute sort unique datastore query).1 = result at hexecutes
  generalize (store.execute sort unique datastore query).2 = next at hexecutes ⊢
  cases hexecutes with
  | @creates rows nextKey _ hs =>
    apply h.setRows
    intro column hcolumn
    apply uniqueIn_stage hcolumn _ hs
    rw [List.append_nil]
    exact (h _ column hcolumn).kept
  | @refuses _ nextKey =>
    apply h.setRows
    intro column hcolumn
    exact (h _ column hcolumn).kept
  | updates _ hc =>
    apply h.setRows _ store.nextKey
    intro column hcolumn
    exact (uniqueIn_updated hcolumn (h _ column hcolumn) hc).1
  | destroys =>
    apply h.setRows _ store.nextKey
    intro column hcolumn
    exact (h _ column hcolumn).sublist List.filter_sublist
  | finds | findsOne | counts | clashes => exact h
  | replaces =>
    intro id column hcolumn
    rw [rows_replaceCollection]
    exact h id column hcolumn

theorem Reachable.keepsUnique (h : Reachable sort unique store) : KeepsUnique unique store := by
  refine Reachable.induct ?_ ?_ h
  · exact fun _ _ _ => List.Pairwise.nil
  · intro store step hunique
    exact hunique.execute step.datastore step.query

/-- However a store came about, two rows at different places of a table never hold equal values,
null apart, in a column of unique values. -/
theorem reachable_values_unique (sort : RowSort) (unique : List (String × String)) (store : Store)
    (h : Reachable sort unique store) (datastore table column : String)
    (hunique : (table, column) ∈ unique) (i j : Nat) (hij : i ≠ j) (row other : Record)
    (hrow : (store.rows ⟨datastore, table⟩)[i]? = some row)
    (hother : (store.rows ⟨datastore, table⟩)[j]? = some other) (a b : Json)
    (ha : row.get? column = some a) (hb : other.get? column = some b)
    (hnull : a.isNull = false) : (a == b) = false := by
  have hcolumn : column ∈ uniqueColumns unique table := by
    apply List.mem_map.mpr
    exact ⟨(table, column), List.mem_filter.mpr ⟨hunique, by simp⟩, rfl⟩
  have hrows := List.pairwise_iff_getElem.mp (h.keepsUnique ⟨datastore, table⟩ column hcolumn)
  obtain ⟨hi, rfl⟩ := List.getElem?_eq_some_iff.mp hrow
  obtain ⟨hj, rfl⟩ := List.getElem?_eq_some_iff.mp hother
  apply beq_eq_false_of_sharesValue _ ha hnull hb
  rcases Nat.lt_or_gt_of_ne hij with hlt | hlt
  · exact hrows i j hi hj hlt
  · rw [sharesValue_comm]
    exact hrows j i hj hi hlt

private def named (key : Nat) (name : String) : Record :=
  ⟨[("id", Json.nat key), ("name", .str name)]⟩

private def petQuery (method : Method) (newRecords : List Record) (filter values : Record) :
    PhysicalQuery where
  method := method
  table := "pets"
  identity := "pet"
  primaryKey := "id"
  newRecords := newRecords
  criteria := some (.obj ⟨[("where", .obj filter)]⟩)
  valuesToSet := some values

/-- Two pets, of which one gets the name that the other has just given up, and then a batch that
is refused. -/
private def renamedPets : List PhysicalQuery :=
  [petQuery .createEach [named 1 "Rex", named 2 "Tom"] {} {},
    petQuery .update [] ⟨[("id", Json.nat 1)]⟩ ⟨[("name", .str "Ada")]⟩,
    petQuery .update [] ⟨[("id", Json.nat 2)]⟩ ⟨[("name", .str "Rex")]⟩,
    petQuery .normalizeEach [named 3 "Bo", named 4 "Rex"] {} {}]

private def renamedStore : Store :=
  renamedPets.foldl
    (fun store query => (store.execute .inserting [("pets", "name")] "default" query).2) {}

/-- The names that the two pets have at last are different. -/
theorem reachable_values_unique_renamed :
    (renamedStore.rows ⟨"default", "pets"⟩)[0]? = some (named 1 "Ada") ∧
      (renamedStore.rows ⟨"default", "pets"⟩)[1]? = some (named 2 "Rex") ∧
      (Json.str "Ada" == Json.str "Rex") = false :=
  ⟨rfl, rfl, reachable_values_unique .inserting [("pets", "name")] renamedStore
    (.execute _ _ (.execute _ _ (.execute _ _ (.execute _ _ .empty)))) "default" "pets" "name"
    (by decide) 0 1 (by decide) (named 1 "Ada") (named 2 "Rex") rfl rfl (.str "Ada") (.str "Rex")
    rfl rfl rfl⟩

end GraphRecords.Store
