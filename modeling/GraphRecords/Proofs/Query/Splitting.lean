import GraphRecords.Proofs.Columns.Renaming
import GraphRecords.Query.Physical

/-!
# Splitting records

Where a record is split, its to-many associations are taken out of it, and of each of them the
members are set aside if there are any. A query is compiled exactly where that goes well for all
its records, and then nothing is lost: what is not set aside for a record stays in it.
-/

namespace GraphRecords

/-- The members that a record gives for a to-many association, none where it gives no list. -/
def Dict.members (record : Record) (name : String) : List Json :=
  ((record.get? name).bind Json.toArray?).getD []

/-- The same where there are any. -/
def Dict.someMembers? (record : Record) (name : String) : Option (List Json) :=
  if (Dict.members record name).isEmpty then none else some (Dict.members record name)

/-- The record gives a list, null or nothing under the name. -/
def Dict.GivesMembers (record : Record) (name : String) : Prop :=
  ∀ value, record.get? name = some value → value = .null ∨ ∃ members, value = .arr members

/-- A to-many association of the model has the name. -/
def Model.HasCollection (model : Model) (name : String) : Prop :=
  ∃ a ∈ model.attributes.values, a.isCollection = true ∧ a.name = name

instance (model : Model) (name : String) : Decidable (model.HasCollection name) :=
  inferInstanceAs (Decidable (∃ a ∈ model.attributes.values, a.isCollection = true ∧ a.name = name))

theorem Model.mem_collections_iff {model : Model} {a : Attribute} :
    a ∈ model.collections ↔ a ∈ model.attributes.values ∧ a.isCollection = true :=
  List.mem_filter

private theorem Model.mem_names_collections_iff {model : Model} {name : String} :
    name ∈ model.collections.map Attribute.name ↔ model.HasCollection name := by
  simp only [List.mem_map, mem_collections_iff, HasCollection, and_assoc]

/-- The record without the entries under the names. -/
def Dict.without (record : Record) (names : List String) : Record :=
  record.filter fun key _ => key ∉ names

private theorem Dict.someMembers?_eq_some_iff {record : Record} {name : String}
    {members : List Json} :
    Dict.someMembers? record name = some members ↔
      members ≠ [] ∧ record.get? name = some (.arr members) := by
  unfold Dict.someMembers? Dict.members
  cases record.get? name with
  | none => simp
  | some value =>
    cases value with
    | arr items => cases items <;> simp +contextual [Json.toArray?, eq_comm]
    | null | bool | num | str | obj => simp [Json.toArray?]

private theorem Dict.someMembers?_erase (record : Record) (name other : String) :
    Dict.someMembers? (record.erase name) other =
      if other = name then none else Dict.someMembers? record other := by
  unfold Dict.someMembers? Dict.members
  rw [Dict.get?_erase]
  split <;> simp

private theorem Dict.without_nil (record : Record) : record.without [] = record := by
  simp [Dict.without, Dict.filter]

private theorem Dict.without_cons (record : Record) (name : String) (names : List String) :
    record.without (name :: names) = (record.erase name).without names := by
  simp [Dict.without, Dict.filter, Dict.erase, List.filter_filter, Bool.and_comm]

namespace PhysicalQuery

open Outcome

variable {model : Model} {split next result : Split} {a : Attribute} {attributes : List Attribute}

private theorem splitOne_eq_ok (h : splitOne model split a = .ok next) :
    next.record = split.record.erase a.name ∧
      next.reset = split.reset.insert? a.name (split.record.someMembers? a.name) := by
  unfold splitOne at h
  unfold Dict.someMembers? Dict.members
  split at h
  · rename_i hvalue
    cases h
    simp [hvalue, Dict.insert?]
  · rename_i hvalue
    cases h
    simp [hvalue, Dict.insert?, Json.toArray?]
  · rename_i hvalue
    cases h
    simp [hvalue, Dict.insert?, Json.toArray?]
  · rename_i members hne hvalue
    cases h
    have hsome : members ≠ [] := hne
    simp [hvalue, Dict.insert?, Json.toArray?, hsome]
  · cases h

private theorem exists_splitOne_iff :
    (∃ next, splitOne model split a = .ok next) ↔ split.record.GivesMembers a.name := by
  unfold splitOne Dict.GivesMembers
  cases split.record.get? a.name with
  | none => simp
  | some value =>
    cases value with
    | arr items => cases items <;> simp
    | null | bool | num | str | obj => simp

private theorem exists_foldlM_splitOne_iff :
    (∃ result, attributes.foldlM (splitOne model) split = .ok result) ↔
      ∀ a ∈ attributes, split.record.GivesMembers a.name := by
  induction attributes generalizing split with
  | nil => exact ⟨fun _ => List.forall_mem_nil _, fun _ => ⟨split, rfl⟩⟩
  | cons a rest ih =>
    have hrest (next : Split) (ha : split.record.GivesMembers a.name)
        (hnext : splitOne model split a = .ok next) :
        (∃ result, rest.foldlM (splitOne model) next = .ok result) ↔
          ∀ b ∈ rest, split.record.GivesMembers b.name := by
      rw [ih]
      refine forall₂_congr fun b _ => ?_
      rw [Dict.GivesMembers, (splitOne_eq_ok hnext).1]
      by_cases hname : b.name = a.name
      · simp [Dict.get?_erase, hname, ha]
      · simp [Dict.get?_erase, hname, Dict.GivesMembers]
    rw [List.forall_mem_cons, List.foldlM_cons]
    constructor
    · rintro ⟨result, h⟩
      obtain ⟨next, hnext, h⟩ := bind_eq_ok_iff.mp h
      have ha := exists_splitOne_iff.mp ⟨next, hnext⟩
      exact ⟨ha, (hrest next ha hnext).mp ⟨result, h⟩⟩
    · rintro ⟨ha, h⟩
      obtain ⟨next, hnext⟩ := exists_splitOne_iff.mpr ha
      obtain ⟨result, hresult⟩ := (hrest next ha hnext).mpr h
      exact ⟨result, bind_eq_ok_iff.mpr ⟨next, hnext, hresult⟩⟩

/-- How attributes were taken out of a record. -/
structure Splits (attributes : List Attribute) (split result : Split) : Prop where
  record : result.record = split.record.without (attributes.map Attribute.name)
  reset (name : String) : result.reset.get? name =
    if name ∈ attributes.map Attribute.name then
      (split.record.someMembers? name).or (split.reset.get? name)
    else split.reset.get? name
  ordered (h : split.reset.Ordered) : result.reset.Ordered

private theorem splits_of_foldlM (h : attributes.foldlM (splitOne model) split = .ok result) :
    Splits attributes split result := by
  induction attributes generalizing split with
  | nil =>
    cases h
    exact ⟨(Dict.without_nil _).symm, fun _ => rfl, id⟩
  | cons a rest ih =>
    rw [List.foldlM_cons] at h
    obtain ⟨next, hnext, hrest⟩ := bind_eq_ok_iff.mp h
    obtain ⟨hrecord, hreset⟩ := splitOne_eq_ok hnext
    have hsplits := ih hrest
    refine ⟨?_, ?_, ?_⟩
    · rw [hsplits.record, hrecord, List.map_cons, Dict.without_cons]
    · intro name
      rw [hsplits.reset, hrecord, hreset, Dict.someMembers?_erase, Dict.get?_insert?]
      by_cases hname : name = a.name
      · simp [hname]
      · simp [hname, Ne.symm hname]
    · intro hordered
      refine hsplits.ordered ?_
      rw [hreset]
      cases split.record.someMembers? a.name with
      | none => exact hordered
      | some members => exact hordered.insert _ _

private theorem exists_splitRecord_iff {record : Record} :
    (∃ split, splitRecord model record = .ok split) ↔
      ∀ name, model.HasCollection name → record.GivesMembers name := by
  simp only [splitRecord, exists_foldlM_splitOne_iff, ← Model.mem_names_collections_iff,
    List.forall_mem_map]

theorem splits_of_splitRecord {record : Record} (h : splitRecord model record = .ok result) :
    Splits model.collections ⟨record, .empty⟩ result :=
  splits_of_foldlM h

theorem compile_eq_ok {schema : Schema} {identity : String} {query : LogicalQuery}
    {physical : PhysicalQuery} (hfound : schema.get? identity = some model)
    (h : compile schema identity query = .ok physical) :
    physical.table = model.tableName ∧ physical.primaryKey = model.primaryKeyColumn ∧
      ∃ splits, List.Forall₂ (fun record split => splitRecord model record = .ok split)
        query.newRecords splits ∧ physical.resets = splits.map (·.reset) := by
  unfold compile at h
  rw [hfound] at h
  obtain ⟨splits, hsplits, h⟩ := bind_eq_ok_iff.mp h
  cases h
  exact ⟨rfl, rfl, splits, mapM_eq_ok_iff.mp (mapError_eq_ok_iff.mp hsplits), rfl⟩

/-- The reset holds the lists with members that the record gives for to-many associations. -/
structure ResetOf (model : Model) (record : Record) (reset : CollectionReset) : Prop where
  ordered : reset.Ordered
  get?_iff (name : String) (members : List Json) : reset.get? name = some members ↔
    model.HasCollection name ∧ members ≠ [] ∧ record.get? name = some (.arr members)

private theorem resetOf_of_splitRecord {record : Record}
    (h : splitRecord model record = .ok result) :
    ResetOf model record result.reset where
  ordered := (splits_of_splitRecord h).ordered List.Pairwise.nil
  get?_iff name members := by
    rw [(splits_of_splitRecord h).reset, Dict.get?_empty, Option.or_none,
      ← Model.mem_names_collections_iff]
    split
    · rename_i hname
      simp only [Dict.someMembers?_eq_some_iff, hname, true_and]
    · rename_i hname
      simp only [hname, false_and, reduceCtorEq]

/-- What a query is compiled to: its records lose their to-many associations to the resets and are
otherwise renamed only, and fetching is turned on where there are members to store. -/
structure CompiledFrom (model : Model) (query : LogicalQuery) (physical : PhysicalQuery) :
    Prop where
  newRecords : physical.newRecords = query.newRecords.map fun record =>
    model.columns.lowerRecord (record.filter fun key _ => ¬ model.HasCollection key)
  resets : List.Forall₂ (ResetOf model) query.newRecords physical.resets
  fetchRequested : physical.fetchRequested = query.callMeta.fetch
  callMeta : physical.callMeta =
    { query.callMeta with fetch := query.callMeta.fetch || physical.hasResets }

private theorem compiledFrom_of_ofLogical {query : LogicalQuery} {physical : PhysicalQuery}
    (h : ofLogical model query = .ok physical) : CompiledFrom model query physical := by
  obtain ⟨splits, hsplits, h⟩ := bind_eq_ok_iff.mp h
  have hsplits := mapM_eq_ok_iff.mp (mapError_eq_ok_iff.mp hsplits)
  cases h
  refine ⟨?_, ?_, rfl, ?_⟩
  · rw [← List.forall₂_eq_eq_eq, List.forall₂_map_left_iff, List.forall₂_map_right_iff]
    refine hsplits.flip.imp fun split record hsplit => ?_
    rw [(splits_of_splitRecord hsplit).record, Dict.without]
    simp only [Model.mem_names_collections_iff]
  · rw [List.forall₂_map_right_iff]
    exact hsplits.imp fun record split hsplit => resetOf_of_splitRecord hsplit
  · rw [hasResets]
    dsimp only
    cases (splits.map (·.reset)).any (!·.isEmpty) with
    | true => rw [if_pos rfl, Bool.or_true, Meta.withFetch]
    | false => rw [if_neg Bool.false_ne_true, Bool.or_false]

private theorem exists_ofLogical_iff {query : LogicalQuery} :
    (∃ physical, ofLogical model query = .ok physical) ↔
      ∀ record ∈ query.newRecords, ∀ name, model.HasCollection name →
        record.GivesMembers name := by
  simp only [← exists_splitRecord_iff, ← exists_mapM_eq_ok_iff, ofLogical, bind_eq_ok_iff,
    mapError_eq_ok_iff]
  constructor
  · rintro ⟨_, splits, hsplits, _⟩
    exact ⟨splits, hsplits⟩
  · rintro ⟨splits, hsplits⟩
    exact ⟨_, splits, hsplits, rfl⟩

end PhysicalQuery

end GraphRecords
