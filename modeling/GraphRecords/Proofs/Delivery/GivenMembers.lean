import GraphRecords.Proofs.Delivery.Links
import GraphRecords.Proofs.Filter.Matching
import GraphRecords.Proofs.Json.Text
import GraphRecords.Proofs.Query.Splitting

/-!
# Members given by several records

Where the keys of the stored records are different strings and numbers, the key of a record finds
the rows under this key only. So each record links its own members, whatever the others do.
-/

namespace GraphRecords

/-- No other to-many association is stored under the column of this one. -/
def Model.OwnsColumn (model : Model) (a : Attribute) : Prop :=
  ∀ b ∈ model.collections, b.column = a.column → b.name = a.name

instance (model : Model) (a : Attribute) : Decidable (model.OwnsColumn a) :=
  inferInstanceAs (Decidable (∀ b ∈ model.collections, b.column = a.column → b.name = a.name))

namespace Store

/-- The rows have strings and numbers for keys, and no two keys are equal. -/
structure DistinctKeys (primaryKey : String) (rows : List Record) : Prop where
  plain (row : Record) (h : row ∈ rows) (key : Json) (hkey : key ∈ keyOf? primaryKey row) :
    key.isTextOrNumber = true
  distinct : rows.Pairwise fun row other =>
    ∀ key ∈ keyOf? primaryKey row, ∀ next ∈ keyOf? primaryKey other, (key == next) = false

instance (primaryKey : String) (rows : List Record) : Decidable (DistinctKeys primaryKey rows) :=
  decidable_of_iff ((∀ row ∈ rows, ∀ key ∈ keyOf? primaryKey row, key.isTextOrNumber = true) ∧
      rows.Pairwise fun row other =>
        ∀ key ∈ keyOf? primaryKey row, ∀ next ∈ keyOf? primaryKey other, (key == next) = false)
    ⟨fun h => ⟨h.1, h.2⟩, fun h => ⟨h.plain, h.distinct⟩⟩

variable {primaryKey : String} {rows : List Record} {record : Record} {key own : Json}

private theorem satisfies_textOrNumber {constraint : Json} (h : constraint.isTextOrNumber = true)
    (actual : Json) : Filter.satisfies actual constraint = (actual == constraint) := by
  cases constraint with
  | str | num => rfl
  | null | bool | arr | obj => cases h

private theorem finds_own (hand : primaryKey ≠ "and") (hor : primaryKey ≠ "or") (hm : record ∈ rows)
    (hkey : keyOf? primaryKey record = some key) (hplain : key.isTextOrNumber = true) :
    Finds rows primaryKey record key.render := by
  have hget := keyOf?_eq_some hkey
  refine ⟨key, hkey, record, hm, ?_, key, hget, rfl⟩
  rw [Filter.holdsFor_single record hand hor, satisfies_textOrNumber hplain, Dict.getD, hget]
  exact Json.same_self key

private theorem same_of_finds (hand : primaryKey ≠ "and") (hor : primaryKey ≠ "or")
    (hown : keyOf? primaryKey record = some own) (hplain : own.isTextOrNumber = true)
    (hkey : key.isTextOrNumber = true) (h : Finds rows primaryKey record key.render) :
    (key == own) = true := by
  obtain ⟨other, hother, row, _, hholds, found, hfound, htext⟩ := h
  cases hown.symm.trans hother
  rw [Filter.holdsFor_single row hand hor, satisfies_textOrNumber hplain, Dict.getD, hfound]
    at hholds
  have hsame := Json.render_injective (Json.isTextOrNumber_of_same hplain hholds) hkey htext
  exact hsame ▸ hholds

end Store

namespace Delivery

variable {d : Delivery Store} {query : PhysicalQuery} {store : Store}
variable {pairs : List (Record × CollectionReset)} {pair : Record × CollectionReset}

theorem membersFor?_of_splits (hnamed : d.model.AttributesNamed) {record : Record}
    {split : PhysicalQuery.Split}
    (h : PhysicalQuery.Splits d.model.collections ⟨record, .empty⟩ split) {a : Attribute}
    (ha : a ∈ d.model.collections) (hown : d.model.OwnsColumn a) :
    d.membersFor? split.reset a.column = record.someMembers? a.name := by
  have hcolumn (b : Attribute) (hb : b ∈ d.model.collections) :
      d.model.columns.column b.name = b.column :=
    hnamed.column_eq (hnamed.mem_values_iff.mp (List.mem_filter.mp hb).1)
  have hkeys : ∀ name ∈ (split.reset.map Json.arr).keys,
      d.model.columns.column name = d.model.columns.column a.name → name = a.name := by
    intro name hname he
    by_cases hm : name ∈ d.model.collections.map Attribute.name
    · obtain ⟨b, hb, rfl⟩ := List.mem_map.mp hm
      rw [hcolumn b hb, hcolumn a ha] at he
      exact hown b hb he
    · have hnone : (split.reset.map Json.arr).get? name = none := by
        rw [Dict.get?_map, h.reset, if_neg hm]
        rfl
      exact absurd hname (Dict.get?_eq_none_iff.mp hnone)
  have hordered := (h.ordered List.Pairwise.nil).map Json.arr
  rw [membersFor?, Store.membersIn?, ← hcolumn a ha, Dict.get?_mapKeys hordered hkeys,
    Dict.get?_map, h.reset, if_pos (List.mem_map_of_mem ha)]
  cases record.someMembers? a.name <;> rfl

theorem rows_foldl_link (query : PhysicalQuery) (pairs : List (Record × CollectionReset))
    (store : Store) (table : TableId) :
    (pairs.foldl (d.link query) store).rows table = store.rows table := by
  induction pairs generalizing store with
  | nil => rfl
  | cons pair rest ih => rw [List.foldl_cons, ih, rows_link]

private theorem members?_link_own {l : LinkId} (htable : l.table = d.tableId query)
    (hfinds : Store.Finds (store.rows (d.tableId query)) query.primaryKey pair.1 l.owner) :
    (d.link query store pair).members? l =
      (d.membersFor? pair.2 l.column).or (store.members? l) := by
  cases hreset : pair.2.isEmpty with
  | false => exact members?_link_of_reaches ⟨htable, hreset, hfinds⟩
  | true =>
    have hnone : d.membersFor? pair.2 l.column = none := by
      have hentries : pair.2.entries = [] := List.isEmpty_iff.mp hreset
      simp [membersFor?, Store.membersIn?, Dict.mapKeys, Dict.map, hentries, Dict.ofList,
        Dict.override]
    rw [link, if_pos hreset, hnone, Option.none_or]

theorem members?_foldl_link_own (hand : query.primaryKey ≠ "and") (hor : query.primaryKey ≠ "or")
    (hkeys : Store.DistinctKeys query.primaryKey (pairs.map Prod.fst))
    (hrows : ∀ pair ∈ pairs, pair.1 ∈ store.rows (d.tableId query)) (hm : pair ∈ pairs)
    {key : Json} (hkey : Store.keyOf? query.primaryKey pair.1 = some key) (column : String) :
    (pairs.foldl (d.link query) store).members? (Store.linkId (d.tableId query) key column) =
      (d.membersFor? pair.2 column).or
        (store.members? (Store.linkId (d.tableId query) key column)) := by
  have hplain (other : Record × CollectionReset) (ho : other ∈ pairs) (own : Json)
      (hown : Store.keyOf? query.primaryKey other.1 = some own) : own.isTextOrNumber = true :=
    hkeys.plain other.1 (List.mem_map_of_mem ho) own hown
  have hsame (other : Record × CollectionReset) (ho : other ∈ pairs) (rows : List Record)
      (hreaches : d.Reaches query rows other (Store.linkId (d.tableId query) key column)) :
      ∃ own, Store.keyOf? query.primaryKey other.1 = some own ∧ (key == own) = true := by
    obtain ⟨_, _, hfinds⟩ := hreaches
    obtain ⟨own, hown, _⟩ := id hfinds
    exact ⟨own, hown, Store.same_of_finds hand hor hown (hplain other ho own hown)
      (hplain pair hm key hkey) hfinds⟩
  obtain ⟨before, behind, rfl⟩ := List.append_of_mem hm
  have hdistinct := List.pairwise_append.mp (List.pairwise_map.mp hkeys.distinct)
  have hbehind := (List.pairwise_cons.mp hdistinct.2.1).1
  rw [List.foldl_append, List.foldl_cons, members?_foldl_link_of_not_reaches, members?_link_own rfl,
    members?_foldl_link_of_not_reaches]
  · rfl
  · intro other ho hreaches
    have hmem := List.mem_append_left (pair :: behind) ho
    obtain ⟨own, hown, hequal⟩ := hsame other hmem _ hreaches
    have hdifferent := hdistinct.2.2 other ho pair List.mem_cons_self own hown key hkey
    rw [Json.beq_comm, hequal] at hdifferent
    cases hdifferent
  · rw [rows_foldl_link]
    exact Store.finds_own hand hor (hrows pair hm) hkey (hplain pair hm key hkey)
  · intro other ho hreaches
    have hmem := List.mem_append_right before (List.mem_cons_of_mem pair ho)
    obtain ⟨own, hown, hequal⟩ := hsame other hmem _ hreaches
    have hdifferent := hbehind other ho key hkey own hown
    cases hdifferent.symm.trans hequal

end Delivery

end GraphRecords
