import GraphRecords.Proofs.Filter.Lowering
import GraphRecords.Proofs.Query.Modifiers

/-!
# Criteria read back

Where no attribute names a column, lowering criteria renames nothing, and what it writes are
criteria again. Each clause that is written is read as what it was written from, and a clause that
is left out says what its absence says.
-/

namespace GraphRecords

open Outcome

namespace Columns

variable {columns : Columns}

mutual

private theorem lowerEntries_of_isIdentity (h : columns.isIdentity = true) :
    ∀ entries : List (String × Json), Json.WellFormedFields entries →
      columns.lowerEntries entries = entries
  | [], _ => rfl
  | (key, value) :: rest, hw => by
    rw [lowerEntries, lowerEntry_of_isIdentity h key value hw.1,
      lowerEntries_of_isIdentity h rest hw.2]

private theorem lowerEntry_of_isIdentity (h : columns.isIdentity = true) (key : String) :
    ∀ value : Json, value.WellFormed → columns.lowerEntry key value = (key, value)
  | .arr branches, hw => by
    rw [lowerEntry]
    split
    · rw [lowerBranches_of_isIdentity h branches hw]
    · rw [column_of_isIdentity h]
  | .null, _ | .bool _, _ | .num _, _ | .str _, _ | .obj _, _ => by
    rw [lowerEntry]
    · rw [column_of_isIdentity h]
    · nofun

private theorem lowerBranches_of_isIdentity (h : columns.isIdentity = true) :
    ∀ branches : List Json, Json.WellFormedItems branches →
      columns.lowerBranches branches = branches
  | [], _ => rfl
  | .obj ⟨fields⟩ :: rest, hw => by
    rw [lowerBranches, lowerEntries_of_isIdentity h fields hw.1.2, hw.1.1.ofList_entries,
      lowerBranches_of_isIdentity h rest hw.2]
  | .null :: rest, hw | .bool _ :: rest, hw | .num _ :: rest, hw | .str _ :: rest, hw
  | .arr _ :: rest, hw => by
    rw [lowerBranches]
    · rw [lowerBranches_of_isIdentity h rest hw.2]
    · nofun

end

private theorem lowerFilter_of_isIdentity (h : columns.isIdentity = true) {filter : Record}
    (hw : (Json.obj filter).WellFormed) : columns.lowerFilter filter = filter := by
  rw [lowerFilter, lowerEntries_of_isIdentity h filter.entries hw.2]
  exact hw.1.ofList_entries

private theorem lowerNames_of_isIdentity (h : columns.isIdentity = true) (names : List String) :
    columns.lowerNames names = names := by
  have hcolumn : columns.column = id := funext (column_of_isIdentity h)
  rw [lowerNames, hcolumn, List.map_id]

end Columns

private theorem Model.isIdentity_columns {model : Model}
    (h : ∀ a ∈ model.attributes.values, a.columnName = none) : model.columns.isIdentity = true := by
  have hnone : Columns.renamings model.attributes.values = [] := by
    apply List.filterMap_eq_nil_iff.mpr
    intro a ha
    rw [h a ha, Option.map_none]
  rw [columns, Columns.ofAttributes_eq, hnone]
  rfl

namespace Criteria

variable {method : Method} {model : Model} {criteria : Criteria} {columns : Columns}

private theorem check_of_keyFilter {value : Json} {filter : Record}
    (htoOne : model.isCollection model.primaryKey = false)
    (hkey : ¬(model.primaryKey = "and" ∨ model.primaryKey = "or"))
    (hw : value.WellFormed) (h : keyFilter model value = .ok filter) :
    Filter.check model filter = .ok () ∧ (Json.obj filter).WellFormed := by
  have hrecognized : model.recognizes model.primaryKey = true := by simp [Model.recognizes]
  have hcheck {constraint : Json}
      (hc : Filter.checkColumn model model.primaryKey constraint = .ok ()) :
      Filter.check model ⟨[(model.primaryKey, constraint)]⟩ = .ok () := by
    have hentry : Filter.checkKey model model.primaryKey constraint = .ok () := by
      cases constraint <;> simpa only [Filter.checkKey, if_neg hkey] using hc
    rw [Filter.check, Filter.checkAll, hentry]
    rfl
  have hplain {key : Json} (hk : isKeyValue key = true) :
      Filter.checkColumn model model.primaryKey key = .ok () := by
    cases key <;> simp_all [Filter.checkColumn, isKeyValue, Json.isString, Json.isNumber]
  cases value with
  | arr keys =>
    simp only [keyFilter] at h
    split at h
    · cases h
      refine ⟨hcheck ?_, List.pairwise_singleton _ _,
        ⟨List.pairwise_singleton _ _, hw, trivial⟩, trivial⟩
      have hmodifiers :
          Filter.checkModifiers model.primaryKey ⟨[("in", .arr keys)]⟩ = .ok () := rfl
      change Filter.checkColumn model model.primaryKey (.obj ⟨[("in", .arr keys)]⟩) = .ok ()
      simpa [Filter.checkColumn, hrecognized, htoOne] using hmodifiers
    · cases h
  | null | bool | num | str | obj =>
    simp only [keyFilter] at h
    split at h
    · rename_i hk
      cases h
      exact ⟨hcheck (hplain hk), List.pairwise_singleton _ _, hw, trivial⟩
    · cases h

/-- Whatever a filter is read from, it is one that callers may give. -/
private theorem check_of_readFilter {value : Json} {filter : Record}
    (htoOne : model.isCollection model.primaryKey = false)
    (hkey : ¬(model.primaryKey = "and" ∨ model.primaryKey = "or"))
    (hw : value.WellFormed) (h : readFilter model value = .ok filter) :
    Filter.check model filter = .ok () ∧ (Json.obj filter).WellFormed := by
  cases value with
  | null =>
    cases h
    exact ⟨rfl, List.Pairwise.nil, trivial⟩
  | obj fields =>
    obtain ⟨_, hcheck, h⟩ := bind_eq_ok_iff.mp h
    cases h
    exact ⟨hcheck, hw⟩
  | bool | num | str | arr => exact check_of_keyFilter htoOne hkey hw h

theorem readFilter_obj_eq_ok {filter : Record} (h : Filter.check model filter = .ok ()) :
    readFilter model (.obj filter) = .ok filter := by
  rw [readFilter, h]
  rfl

private theorem checkSortable_of_readSortExpression {expression : String} {key : SortKey}
    (h : readSortExpression model expression = .ok key) :
    checkSortable model key.attributeName = .ok () := by
  unfold readSortExpression at h
  split at h
  · cases h
  · obtain ⟨_, hcheck, h⟩ := bind_eq_ok_iff.mp h
    cases h
    exact hcheck
  · split at h
    · cases h
    · split at h
      · obtain ⟨_, hcheck, h⟩ := bind_eq_ok_iff.mp h
        cases h
        exact hcheck
      · cases h

private theorem checkSortable_of_readSortEntry {entry : String × Json} {key : SortKey}
    (h : readSortEntry model entry = .ok key) :
    checkSortable model key.attributeName = .ok () := by
  obtain ⟨_, hcheck, h⟩ := bind_eq_ok_iff.mp h
  split at h
  · cases h
    exact hcheck
  · cases h

private theorem checkSortable_of_readSortItem {value : Json} {keys : List SortKey}
    (h : readSortItem model value = .ok keys) :
    ∀ key ∈ keys, checkSortable model key.attributeName = .ok () := by
  intro key hkey
  cases value with
  | null =>
    cases h
    cases hkey
  | str expression =>
    obtain ⟨read, hread, h⟩ := bind_eq_ok_iff.mp h
    cases h
    rw [List.mem_singleton.mp hkey]
    exact checkSortable_of_readSortExpression hread
  | obj fields =>
    obtain ⟨entry, _, hentry⟩ := exists_mem_of_mapM_eq_ok h hkey
    exact checkSortable_of_readSortEntry hentry
  | bool | num | arr => cases h

theorem checkSortable_of_readSort {value : Json} {keys : List SortKey}
    (h : readSort model value = .ok keys) :
    ∀ key ∈ keys, checkSortable model key.attributeName = .ok () := by
  cases value with
  | arr items =>
    obtain ⟨read, hread, h⟩ := bind_eq_ok_iff.mp h
    cases h
    intro key hkey
    obtain ⟨part, hpart, hkey⟩ := List.mem_flatten.mp hkey
    obtain ⟨item, _, hitem⟩ := exists_mem_of_mapM_eq_ok hread hpart
    exact checkSortable_of_readSortItem hitem key hkey
  | null | bool | num | str | obj =>
    simp only [readSort] at h
    exact checkSortable_of_readSortItem h

private theorem ofJson?_text (direction : Direction) :
    Direction.ofJson? (.str direction.text) = some direction := by
  cases direction <;> rfl

private theorem readSort_lower (hi : columns.isIdentity = true) {keys : List SortKey}
    (h : ∀ key ∈ keys, checkSortable model key.attributeName = .ok ()) :
    readSort model (.arr (keys.map (SortKey.lower columns))) = .ok keys := by
  have hitem : ∀ key ∈ keys, readSortItem model (SortKey.lower columns key) = .ok [key] := by
    intro key hkey
    have hentry : readSortEntry model (key.attributeName, .str key.direction.text) = .ok key := by
      rw [readSortEntry, h key hkey, ofJson?_text]
      rfl
    rw [SortKey.lower, Columns.column_of_isIdentity hi]
    apply mapM_eq_ok_iff.mpr
    exact .cons hentry .nil
  have hitems : (keys.map (SortKey.lower columns)).mapM (readSortItem model) =
      .ok (keys.map ([·])) := by
    apply mapM_eq_ok_iff.mpr
    rw [List.forall₂_map_left_iff, List.forall₂_map_right_iff, List.forall₂_same]
    exact hitem
  rw [readSort, hitems]
  exact congrArg Except.ok (List.flatMap_singleton' keys)

private theorem readNames_strings {clause : String} {value : Json} {names : List String}
    (h : readNames clause model value = .ok names) :
    readNames clause model (Json.strings names) = .ok names := by
  cases value with
  | arr entries =>
    have hname : ∀ name ∈ names, readName clause model (.str name) = .ok name := by
      intro name hname
      obtain ⟨entry, _, hentry⟩ := exists_mem_of_mapM_eq_ok h hname
      cases entry with
      | str text =>
        have hsame := hentry
        simp only [readName] at hsame
        split at hsame
        · cases hsame
        · cases hsame
          exact hentry
      | null | bool | num | arr | obj => cases hentry
    apply mapM_eq_ok_iff.mpr
    rw [List.forall₂_map_left_iff, List.forall₂_same]
    exact hname
  | null | bool | num | str | obj => cases h

theorem wellFormed_of_get?_clausesOf {raw : Option Json} (hw : ∀ value ∈ raw, value.WellFormed)
    {clause : String} {value : Json} (h : (Request.clausesOf raw).get? clause = some value) :
    value.WellFormed := by
  have hwhere {given : Json} (hgiven : given.WellFormed)
      (h : (Dict.empty.insert "where" given).get? clause = some value) : value.WellFormed := by
    rw [Dict.get?_insert] at h
    split at h
    · cases h
      exact hgiven
    · cases h
  cases raw with
  | none => cases h
  | some given =>
    have hgiven := hw given rfl
    cases given with
    | obj fields =>
      simp only [Request.clausesOf] at h
      split at h
      · exact Json.wellFormed_of_mem hgiven.2 (Dict.mem_of_lookup h)
      · exact hwhere hgiven h
    | null | bool | num | str | arr => exact hwhere hgiven h

private theorem field?_lower_eq_none {fields : Record} (h : ReadFrom method model fields criteria)
    {clause : String} (hclause : clause ∈ forbiddenClauses method) :
    (criteria.lower columns).field? clause = none := by
  have hnone := (checkClauses_eq_ok_iff.mp h.clauses).2 clause hclause
  have hpages : clause ∈ ["limit", "skip", "sort", "select", "omit"] := by
    have hall : ∀ clause ∈ forbiddenClauses method,
        clause ∈ ["limit", "skip", "sort", "select", "omit"] := by
      cases method <;> decide
    exact hall clause hclause
  simp only [List.mem_cons, List.not_mem_nil, or_false] at hpages
  rcases hpages with rfl | rfl | rfl | rfl | rfl
  · rw [field?_lower_limit, readClause_of_get?_eq_none hnone h.limit, Option.map_none]
  · rw [field?_lower_skip, readClause_of_get?_eq_none hnone h.skip, if_pos rfl]
  · rw [field?_lower_sort, readClause_of_get?_eq_none hnone h.sort]
    rfl
  · rw [field?_lower_select, readClause_of_get?_eq_none hnone h.selected, Option.map_none]
  · rw [field?_lower_omit, readClause_of_get?_eq_none hnone h.omitted]
    rfl

theorem readClause_cases {α : Type} {fields : Record} {clause : String} {default value : α}
    {read : Json → Except CriteriaFault α} (h : readClause fields clause default read = .ok value) :
    value = default ∨ ∃ given, fields.get? clause = some given ∧ read given = .ok value := by
  cases hget : fields.get? clause with
  | none => exact .inl (readClause_of_get?_eq_none hget h)
  | some given =>
    rw [readClause, hget] at h
    exact .inr ⟨given, rfl, h⟩

private theorem readClause_eq_ok {α : Type} {fields : Record} {clause : String} {default value : α}
    {read : Json → Except CriteriaFault α} {given : Option Json}
    (hget : fields.get? clause = given) (hnone : given = none → value = default)
    (hsome : ∀ written, given = some written → read written = .ok value) :
    readClause fields clause default read = .ok value := by
  rw [readClause, hget]
  cases given with
  | none => exact congrArg Except.ok (hnone rfl).symm
  | some written => exact hsome written rfl

private theorem readClause_list {α : Type} {fields : Record} {clause : String} {values : List α}
    {read : Json → Except CriteriaFault (List α)} {written : Json}
    (hget : fields.get? clause = if values.isEmpty then none else some written)
    (h : values ≠ [] → read written = .ok values) :
    readClause fields clause [] read = .ok values := by
  cases values with
  | nil => exact readClause_eq_ok hget (fun _ => rfl) nofun
  | cons value rest =>
    apply readClause_eq_ok hget nofun
    rintro _ ⟨⟩
    exact h (List.cons_ne_nil value rest)

private theorem readClause_option {α : Type} {fields : Record} {clause : String} {value : Option α}
    {read : Json → Except CriteriaFault (Option α)} {write : α → Json}
    (hget : fields.get? clause = value.map write)
    (h : ∀ x, value = some x → read (write x) = .ok (some x)) :
    readClause fields clause none read = .ok value := by
  cases value with
  | none => exact readClause_eq_ok hget (fun _ => rfl) nofun
  | some x =>
    apply readClause_eq_ok hget nofun
    rintro _ ⟨⟩
    exact h x rfl

theorem readNatural_nat (clause : String) (n : Nat) : readNatural clause (Json.nat n) = .ok n := by
  rw [readNatural, Json.toNat?_nat]

theorem readSome_eq_ok {α : Type} {read : Json → Except CriteriaFault α} {value : Json}
    {result : α} (h : read value = .ok result) : readSome read value = .ok (some result) := by
  rw [readSome, h]
  rfl

/-- Accepted criteria are read back from the clauses that they are lowered to, whatever clauses
they were read from. -/
theorem ReadFrom.lower {fields lowered : Record} (h : ReadFrom method model fields criteria)
    (hi : columns.isIdentity = true) (hfilter : Filter.check model criteria.filter = .ok ())
    (hwf : (Json.obj criteria.filter).WellFormed) (hlower : criteria.lower columns = .obj lowered) :
    ReadFrom method model lowered criteria := by
  have hget (clause : String) : lowered.get? clause = (criteria.lower columns).field? clause := by
    rw [hlower]
    rfl
  have hnames (names : List String) : columns.lowerNames names = names :=
    Columns.lowerNames_of_isIdentity hi names
  exact {
    clauses := by
      apply checkClauses_eq_ok_iff.mpr
      constructor
      · intro key hkey
        by_contra hclause
        apply Dict.get?_eq_none_iff.mp _ hkey
        rw [hget, field?_lower_of_not_isClause (Bool.eq_false_iff.mpr hclause)]
      · intro clause hclause
        rw [hget, field?_lower_eq_none h hclause]
    filter := by
      apply readClause_eq_ok ((hget "where").trans (field?_lower_where columns criteria)) nofun
      rintro written ⟨⟩
      rw [Columns.lowerFilter_of_isIdentity hi hwf]
      exact readFilter_obj_eq_ok hfilter
    limit :=
      readClause_option ((hget "limit").trans (field?_lower_limit columns criteria))
        fun limit _ => readSome_eq_ok (readNatural_nat "limit" limit)
    skip := by
      apply readClause_eq_ok ((hget "skip").trans (field?_lower_skip columns criteria))
      · intro hnone
        by_contra hskip
        rw [if_neg hskip] at hnone
        cases hnone
      · intro written hwritten
        split at hwritten
        · cases hwritten
        · cases hwritten
          exact readNatural_nat "skip" criteria.skip
    sort := by
      apply readClause_list ((hget "sort").trans (field?_lower_sort columns criteria))
      intro hsort
      rcases readClause_cases h.sort with hempty | ⟨given, _, hread⟩
      · exact absurd hempty hsort
      · exact readSort_lower hi (checkSortable_of_readSort hread)
    selected := by
      apply readClause_option ((hget "select").trans (field?_lower_select columns criteria))
      intro names hselected
      rw [hnames]
      rcases readClause_cases h.selected with hnone | ⟨given, _, hread⟩
      · cases hselected.symm.trans hnone
      · obtain ⟨read, hsome, hread⟩ := exists_of_readSome hread
        cases hselected.symm.trans hsome
        exact readSome_eq_ok (readNames_strings hread)
    omitted := by
      apply readClause_list ((hget "omit").trans (field?_lower_omit columns criteria))
      intro homitted
      rw [hnames]
      rcases readClause_cases h.omitted with hempty | ⟨given, _, hread⟩
      · exact absurd hempty homitted
      · exact readNames_strings hread
    bindings :=
      readClause_option ((hget "let").trans (field?_lower_let columns criteria)) fun _ _ => rfl }

/-- Of a model none of whose attributes names a column, and whose primary key can stand in a
filter, accepted criteria of any form are lowered to criteria that the same method accepts and that
come to the same. -/
theorem normalize_lower (method : Method) (model : Model) (raw : Option Json) (criteria : Criteria)
    (hcolumns : ∀ a ∈ model.attributes.values, a.columnName = none)
    (htoOne : model.isCollection model.primaryKey = false)
    (hand : model.primaryKey ≠ "and") (hor : model.primaryKey ≠ "or")
    (hw : ∀ value ∈ raw, value.WellFormed) (h : normalize method model raw = .ok criteria) :
    normalize method model (some (criteria.lower model.columns)) = .ok criteria := by
  rw [normalize_eq_ofClauses] at h ⊢
  obtain ⟨hread, hboth⟩ := ofClauses_eq_ok_iff.mp h
  obtain ⟨hfilter, hwf⟩ : Filter.check model criteria.filter = .ok () ∧
      (Json.obj criteria.filter).WellFormed := by
    rcases readClause_cases hread.filter with hempty | ⟨given, hgiven, hfilter⟩
    · rw [hempty]
      exact ⟨rfl, List.Pairwise.nil, trivial⟩
    · exact check_of_readFilter htoOne (not_or_intro hand hor)
        (wellFormed_of_get?_clausesOf hw hgiven) hfilter
  obtain ⟨lowered, hlowered⟩ : ∃ lowered, criteria.lower model.columns = .obj lowered := ⟨_, rfl⟩
  have hlower := hread.lower (Model.isIdentity_columns hcolumns) hfilter hwf hlowered
  have hclause : hasClause lowered = true := by
    apply List.any_eq_true.mpr
    refine ⟨"where", Dict.contains_iff.mp ?_, rfl⟩
    have hwhere := field?_lower_where model.columns criteria
    rw [hlowered] at hwhere
    exact Option.isSome_of_eq_some hwhere
  rw [hlowered, Request.clausesOf_of_hasClause hclause]
  exact ofClauses_eq_ok_iff.mpr ⟨hlower, hboth⟩

private def unrenamed (name : String) (association : Option Association) : Attribute where
  name := name
  valueType := none
  defaultValue := none
  required := false
  allowNull := false
  autoCreatedAt := false
  autoUpdatedAt := false
  association := association
  columnName := none

private def toyOwner : Model where
  identity := "pet"
  tableName := "pet"
  datastore := "default"
  role := .vertex
  tenants := []
  indexes := []
  attributes := ⟨[("name", unrenamed "name" none),
    ("toys", unrenamed "toys" (some (.collection "toy" none none false)))]⟩
  primaryKey := "id"
  bindings := none

/-- Sorts in three forms, and skips no rows. -/
private def secondOrRex : Json :=
  .obj ⟨[("let", .obj ⟨[("limit", .null)]⟩), ("limit", Json.nat 2), ("omit", .arr [.str "toys"]),
    ("skip", Json.nat 0),
    ("sort", .arr [.str "name DESC", .null, .obj ⟨[("id", Json.int (-1)), ("name", .str "asc")]⟩]),
    ("where", .obj ⟨[("or", .arr [
      .obj ⟨[("and", .arr [.obj ⟨[]⟩, .obj ⟨[("id", .obj ⟨[("in", .arr [Json.nat 2])]⟩)]⟩])]⟩,
      .obj ⟨[("name", .str "Rex")]⟩])]⟩)]⟩

/-- Criteria with branches within branches come back with their three keys to sort by. -/
theorem normalize_lower_sorted : ∃ criteria,
    normalize .find toyOwner (some secondOrRex) = .ok criteria ∧
      criteria.sort = [⟨"name", .descending⟩, ⟨"id", .descending⟩, ⟨"name", .ascending⟩] ∧
      normalize .find toyOwner (some (criteria.lower toyOwner.columns)) = .ok criteria := by
  have hw : secondOrRex.WellFormed := by
    simp only [secondOrRex, Json.nat, Json.int, Json.WellFormed, Json.WellFormedFields,
      Json.WellFormedItems]
    decide
  refine ⟨_, rfl, rfl, normalize_lower .find toyOwner (some secondOrRex) _ ?_ ?_ ?_ ?_ ?_ rfl⟩
  · decide
  · rfl
  · decide
  · decide
  · rintro value ⟨⟩
    exact hw

end Criteria

end GraphRecords
