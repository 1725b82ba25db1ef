import GraphRecords.Proofs.Json.Order
import GraphRecords.Proofs.Store.Steps
import Mathlib.Data.List.Basic

/-!
# Sorted finds

A find is sorted when no row compares greater than a later one and rows that compare alike keep
their order. Rows among which the comparison is a total preorder are sorted by every sort, and only
they. Rows that stand in a circle, each going before the next and the last before the first, are
sorted by none.
-/

namespace GraphRecords

namespace RowOrder

variable {order : RowOrder} {rows sorted : List Record}

/-- Three of the rows go before one another in a circle. -/
def Circular (order : RowOrder) (rows : List Record) : Prop :=
  ∃ a ∈ rows.zipIdx, ∃ b ∈ rows.zipIdx, ∃ c ∈ rows.zipIdx,
    order.Precedes a b ∧ order.Precedes b c ∧ order.Precedes c a

private theorem Precedes.lt_of_pairwise [Std.OrientedCmp order] {placed : List (Record × Nat)}
    (hsorted : placed.Pairwise order.Precedes) {i j : Nat} {hi : i < placed.length}
    {hj : j < placed.length} (h : order.Precedes placed[i] placed[j]) : i < j := by
  rcases Nat.lt_trichotomy i j with hlt | rfl | hgt
  · exact hlt
  · exact absurd h h.asymm
  · exact absurd (List.pairwise_iff_getElem.mp hsorted j i hj hi hgt) h.asymm

/-- Rows in a circle cannot be sorted. -/
theorem Sorts.not_circular [Std.OrientedCmp order] (h : order.Sorts rows sorted) :
    ¬ order.Circular rows := by
  rintro ⟨a, ha, b, hb, c, hc, hab, hbc, hca⟩
  obtain ⟨placed, hperm, _, hsorted⟩ := h
  obtain ⟨i, hi, rfl⟩ := List.getElem_of_mem (hperm.mem_iff.mpr ha)
  obtain ⟨j, hj, rfl⟩ := List.getElem_of_mem (hperm.mem_iff.mpr hb)
  obtain ⟨k, hk, rfl⟩ := List.getElem_of_mem (hperm.mem_iff.mpr hc)
  have hij := hab.lt_of_pairwise hsorted
  have hjk := hbc.lt_of_pairwise hsorted
  have hki := hca.lt_of_pairwise hsorted
  omega

private theorem Sorts.head_ne_gt {a b : Record} {rest : List Record}
    (h : order.Sorts rows (a :: b :: rest)) : order a b ≠ .gt := by
  obtain ⟨placed, _, hplaced, hsorted⟩ := h
  have hle : (placed.map Prod.fst).Pairwise (fun a b => order a b ≠ .gt) :=
    List.pairwise_map.mpr (hsorted.imp fun hab => hab.1)
  rw [hplaced] at hle
  exact (List.pairwise_cons.mp hle).1 b List.mem_cons_self

private theorem exists_perm_cons_cons {a b : Record} (ha : a ∈ rows) (hb : b ∈ rows) (hne : a ≠ b) :
    ∃ rest, (a :: b :: rest).Perm rows := by
  obtain ⟨before, after, rfl⟩ := List.append_of_mem ha
  have hothers : b ∈ before ++ after := by
    simpa [hne.symm] using hb
  obtain ⟨before', after', hsplit⟩ := List.append_of_mem hothers
  refine ⟨before' ++ after', ?_⟩
  have hrest : (b :: (before' ++ after')).Perm (before ++ after) := by
    rw [hsplit]
    exact List.perm_middle.symm
  exact (hrest.cons a).trans List.perm_middle.symm

end RowOrder

/-- Where the comparison is no total preorder, rows come out of some sort in any order. -/
theorem RowSort.exists_sort_eq {order : RowOrder} {rows sorted : List Record}
    (h : ¬ order.Preorders rows) (hperm : sorted.Perm rows) :
    ∃ sort : RowSort, sort.sort order rows = sorted := by
  classical
  refine ⟨{
    sort := fun order' rows' =>
      if order' = order ∧ rows' = rows then sorted else inserting.sort order' rows'
    perm := fun order' rows' => ?_
    sorts := fun order' rows' hpreorders => ?_ }, if_pos ⟨rfl, rfl⟩⟩
  · split
    · rename_i hsame
      rw [hsame.2]
      exact hperm
    · exact inserting.perm order' rows'
  · rw [if_neg]
    · exact inserting.sorts order' rows' hpreorders
    · rintro ⟨rfl, rfl⟩
      exact h hpreorders

/-- Rows come out of every sort in order if the comparison is a total preorder, and only then. -/
theorem RowOrder.forall_sorts_iff {order : RowOrder} [Std.OrientedCmp order]
    {rows : List Record} :
    (∀ sort : RowSort, order.Sorts rows (sort.sort order rows)) ↔ order.Preorders rows := by
  refine ⟨fun h => ⟨fun a _ b _ => Std.OrientedCmp.eq_swap, ?_⟩,
    fun h sort => sort.sorts order rows h⟩
  intro a ha b hb c hc hab hbc
  -- Otherwise a greater row and a smaller one may come out as the first two.
  by_contra hac
  have hgt : order a c = .gt := by simpa using mt Ordering.ne_gt_iff_isLE.mp hac
  have hne : a ≠ c := by
    rintro rfl
    have hself : order a a = .eq := Std.ReflCmp.compare_self
    rw [hgt] at hself
    cases hself
  obtain ⟨rest, hperm⟩ := exists_perm_cons_cons ha hc hne
  obtain ⟨sort, hsort⟩ := RowSort.exists_sort_eq
    (fun hpreorders => hac (hpreorders.trans a ha b hb c hc hab hbc)) hperm
  have hsorts := h sort
  rw [hsort] at hsorts
  exact hsorts.head_ne_gt hgt

namespace PhysicalQuery

variable {orders : List ColumnOrder} {rows : List Record}

/-- Among the rows the column holds, beside nulls, values of one kind only. -/
def OneKind (rows : List Record) (column : String) : Prop :=
  ∃ kind, ∀ row ∈ rows, (row.getD column).IsOf kind

theorem ColumnOrder.compare_eq_swap (order : ColumnOrder) (a b : Record) :
    order.compare a b = (order.compare b a).swap := by
  unfold ColumnOrder.compare
  rw [Json.compare_eq_swap]
  split
  · rfl
  · rfl

private theorem compareRows_eq_swap (a b : Record) (orders : List ColumnOrder) :
    compareRows a b orders = (compareRows b a orders).swap := by
  induction orders with
  | nil => rfl
  | cons order rest ih =>
    rw [compareRows, compareRows, order.compare_eq_swap, ih, Ordering.swap_then]

instance (query : PhysicalQuery) : Std.OrientedCmp query.rowOrder :=
  ⟨compareRows_eq_swap _ _ query.orders⟩

private theorem isLE_columnOrder_compare_trans {order : ColumnOrder} {a b c : Record}
    {kind : Json.Kind} (ha : (a.getD order.column).IsOf kind) (hb : (b.getD order.column).IsOf kind)
    (hc : (c.getD order.column).IsOf kind) (hab : (order.compare a b).isLE = true)
    (hbc : (order.compare b c).isLE = true) : (order.compare a c).isLE = true := by
  unfold ColumnOrder.compare at *
  split at hab
  · rename_i hdown
    rw [if_pos hdown, ← Json.compare_eq_swap] at *
    exact Json.isLE_trans hc hb ha hbc hab
  · rename_i hup
    rw [if_neg hup] at *
    exact Json.isLE_trans ha hb hc hab hbc

private theorem transCmp_compareRows (h : ∀ order ∈ orders, OneKind rows order.column) :
    Std.TransCmp (fun a b : {row // row ∈ rows} => compareRows a.1 b.1 orders) := by
  induction orders with
  | nil => exact { eq_swap := rfl, isLE_trans := fun _ _ => rfl }
  | cons order rest ih =>
    obtain ⟨⟨kind, hkind⟩, hrest⟩ := List.forall_mem_cons.mp h
    have hfirst : Std.TransCmp (fun a b : {row // row ∈ rows} => order.compare a.1 b.1) := {
      eq_swap := order.compare_eq_swap _ _
      isLE_trans := fun {a b c} hab hbc => isLE_columnOrder_compare_trans (hkind a.1 a.2)
        (hkind b.1 b.2) (hkind c.1 c.2) hab hbc }
    have hothers := ih hrest
    exact inferInstanceAs (Std.TransCmp (compareLex _ _))

theorem preorders_of_oneKind {query : PhysicalQuery}
    (h : ∀ order ∈ query.orders, OneKind rows order.column) : query.rowOrder.Preorders rows where
  swap _ _ _ _ := Std.OrientedCmp.eq_swap
  trans a ha b hb c hc := (transCmp_compareRows h).isLE_trans (a := ⟨a, ha⟩) (b := ⟨b, hb⟩)
    (c := ⟨c, hc⟩)

private theorem page_of_clause?_eq_none {query : PhysicalQuery}
    (hlimit : query.clause? "limit" = none)
    (hskip : query.clause? "skip" = none) (rows : List Record) : query.page rows = rows := by
  rw [page, natural?, natural?, hlimit, hskip]
  rfl

private theorem project_of_clause?_eq_none {query : PhysicalQuery}
    (hselect : query.clause? "select" = none)
    (homit : query.clause? "omit" = none) (row : Record) : query.project row = row := by
  rw [project, selected?, names?, names?, hselect, homit]
  rfl

end PhysicalQuery

namespace Store

open PhysicalQuery

theorem execute_find_whole {query : PhysicalQuery} (hm : query.method = .find)
    (hwhole : ∀ clause ∈ ["limit", "skip", "select", "omit"], query.clause? clause = none)
    (sort : RowSort) (unique : List (String × String)) (datastore : String) (store : Store) :
    store.execute sort unique datastore query =
      (.ok (some (.arr ((query.sortRows sort
        (store.matching ⟨datastore, query.table⟩ query)).map .obj))), store) := by
  simp only [List.forall_mem_cons] at hwhole
  obtain ⟨hlimit, hskip, hselect, homit, _⟩ := hwhole
  unfold execute
  rw [hm]
  dsimp only
  rw [find, page_of_clause?_eq_none hlimit hskip]
  simp only [project_of_clause?_eq_none hselect homit]

private theorem eq_of_answer {rows other : List Record} {store next : Store}
    (h : ((.ok (some (.arr (rows.map .obj))), store) : Except AdapterError Answer × Store) =
      (.ok (some (.arr (other.map .obj))), next)) : rows = other ∧ store = next := by
  simp only [Prod.mk.injEq, Except.ok.injEq, Option.some.injEq, Json.arr.injEq] at h
  have hinjective : Function.Injective Json.obj := fun _ _ heq => Json.obj.inj heq
  exact ⟨hinjective.list_map h.1, h.2⟩

/-- A find without limit, skip and projection that is answered returns the rows that match,
rearranged, and never sorted when three of them stand in a circle. Whatever sort is used, it is
answered with them sorted exactly when the comparison is a total preorder among them, and so always
when each column to sort by holds among them, beside nulls, values of one kind only. -/
theorem execute_find_sorted_iff (unique : List (String × String)) (datastore : String)
    (query : PhysicalQuery) (store : Store) (hm : query.method = .find)
    (hwhole : ∀ clause ∈ ["limit", "skip", "select", "omit"], query.clause? clause = none) :
    let found := store.matching ⟨datastore, query.table⟩ query
    (∀ (sort : RowSort) (rows : List Record) (next : Store),
      store.execute sort unique datastore query = (.ok (some (.arr (rows.map .obj))), next) →
        rows.Perm found ∧ next = store ∧
          (query.rowOrder.Circular found → ¬ query.rowOrder.Sorts found rows)) ∧
    ((∀ sort : RowSort, ∃ rows : List Record,
      store.execute sort unique datastore query = (.ok (some (.arr (rows.map .obj))), store) ∧
        query.rowOrder.Sorts found rows) ↔ query.rowOrder.Preorders found) ∧
    ((∀ order ∈ query.orders, OneKind found order.column) →
      query.rowOrder.Preorders found) := by
  intro found
  have hexecute (sort : RowSort) := execute_find_whole hm hwhole sort unique datastore store
  refine ⟨?_, ?_, preorders_of_oneKind⟩
  · intro sort rows next h
    obtain ⟨rfl, rfl⟩ := eq_of_answer ((hexecute sort).symm.trans h)
    exact ⟨sort.perm query.rowOrder found, rfl, fun hcircle hsorts =>
      hsorts.not_circular hcircle⟩
  · rw [← RowOrder.forall_sorts_iff]
    constructor
    · intro h sort
      obtain ⟨rows, hrows, hsorts⟩ := h sort
      obtain ⟨rfl, _⟩ := eq_of_answer ((hexecute sort).symm.trans hrows)
      exact hsorts
    · intro h sort
      exact ⟨_, hexecute sort, h sort⟩

private def sortedFind (columns : List (String × Json)) : PhysicalQuery where
  method := .find
  table := "pets"
  identity := "pet"
  primaryKey := "id"
  criteria := some (.obj ⟨[("sort", .arr (columns.map fun entry => .obj ⟨[entry]⟩))]⟩)

private theorem clause?_sortedFind (columns : List (String × Json)) :
    ∀ clause ∈ ["limit", "skip", "select", "omit"], (sortedFind columns).clause? clause = none := by
  simp only [List.forall_mem_cons]
  exact ⟨rfl, rfl, rfl, rfl, nofun⟩

private def aged (name age : Json) : Record := ⟨[("age", age), ("name", name)]⟩

private def stocked (rows : List Record) : Store := Store.setRows {} ⟨"default", "pets"⟩ rows

/-- Pets without a name, without an age, and of an age that is no integer. -/
private def pets : List Record :=
  [aged (.str "Rex") (Json.nat 2), aged .null (Json.nat 7), aged (.str "Rex") .null,
    aged (.str "Tom") (.num (.float (.ofInt 1))), aged (.str "Rex") (Json.nat 1)]

private def sortedPets : List Record :=
  [aged (.str "Tom") (.num (.float (.ofInt 1))), aged (.str "Rex") .null,
    aged (.str "Rex") (Json.nat 1), aged (.str "Rex") (Json.nat 2), aged .null (Json.nat 7)]

/-- Pets are sorted by name downwards, and those of one name by age. -/
theorem execute_find_sorted_iff_two_columns :
    (stocked pets).execute .inserting [] "default"
        (sortedFind [("name", .str "DESC"), ("age", .str "ASC")]) =
      (.ok (some (.arr (sortedPets.map .obj))), stocked pets) ∧
    RowOrder.Sorts (fun a b => compareRows a b [⟨"name", true⟩, ⟨"age", false⟩]) pets
      sortedPets := by
  obtain ⟨_, hsorted, hkinds⟩ := execute_find_sorted_iff [] "default"
    (sortedFind [("name", .str "DESC"), ("age", .str "ASC")]) (stocked pets) rfl
    (clause?_sortedFind _)
  have hfind : (stocked pets).execute .inserting [] "default"
      (sortedFind [("name", .str "DESC"), ("age", .str "ASC")]) =
        (.ok (some (.arr (sortedPets.map .obj))), stocked pets) := rfl
  refine ⟨hfind, ?_⟩
  suffices hpets : ∀ order ∈ [(⟨"name", true⟩ : ColumnOrder), ⟨"age", false⟩],
      OneKind pets order.column by
    obtain ⟨rows, hrows, hsorts⟩ := hsorted.mpr (hkinds hpets) .inserting
    obtain ⟨rfl, _⟩ := eq_of_answer (hrows.symm.trans hfind)
    exact hsorts
  intro order horder
  simp only [List.mem_cons, List.not_mem_nil, or_false] at horder
  rcases horder with rfl | rfl
  · refine ⟨.text, ?_⟩
    simp [pets, aged, Json.IsOf, Dict.getD, Dict.get?, Dict.lookup, Json.kind?]
  · refine ⟨.number, ?_⟩
    simp [pets, aged, Json.IsOf, Dict.getD, Dict.get?, Dict.lookup, Json.kind?, Json.nat]

/-- Two ages that are numbers, the greater one first, with two between them that are texts. -/
private def mixedAges : List Record :=
  [aged (.str "Rex") (Json.nat 2), aged (.str "Tom") (.str "a"), aged (.str "Kit") (.str "a"),
    aged (.str "Sam") (Json.nat 1)]

private theorem circular_mixedAges :
    RowOrder.Circular (fun a b => compareRows a b [⟨"age", false⟩]) mixedAges :=
  ⟨(aged (.str "Rex") (Json.nat 2), 0), by simp [mixedAges],
    (aged (.str "Tom") (.str "a"), 1), by simp [mixedAges],
    (aged (.str "Sam") (Json.nat 1), 3), by simp [mixedAges],
    ⟨nofun, fun _ => by decide⟩, ⟨nofun, fun _ => by decide⟩,
    ⟨by decide +kernel, by decide +kernel⟩⟩

/-- Texts stored between two numbers keep a find from sorting them. -/
theorem texts_between_numbers_unsorted :
    ¬ ∀ (sort : RowSort) (unique : List (String × String)) (datastore : String)
      (query : PhysicalQuery) (store : Store), query.method = .find →
      (∀ clause ∈ ["limit", "skip", "select", "omit"], query.clause? clause = none) →
      ∃ rows : List Record,
        store.execute sort unique datastore query = (.ok (some (.arr (rows.map .obj))), store) ∧
        query.rowOrder.Sorts (store.matching ⟨datastore, query.table⟩ query) rows := by
  intro h
  obtain ⟨rows, _, hsorts⟩ := h .inserting [] "default" (sortedFind [("age", .str "ASC")])
    (stocked mixedAges) rfl (clause?_sortedFind _)
  exact hsorts.not_circular circular_mixedAges

end Store

end GraphRecords
