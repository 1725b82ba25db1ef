import GraphRecords.Proofs.Model.Resolution

/-!
# Renamings of a model

The columns of a model come from the attributes that name one. A recognized name is found again
under its column exactly where no other recognized name has that column.
-/

namespace GraphRecords

namespace Columns

/-- The attributes that name a column, each with it. -/
def renamings (attributes : List Attribute) : List (String × String) :=
  attributes.filterMap (fun a => a.columnName.map (a.name, ·))

private theorem mem_renamings {attributes : List Attribute} {name column : String} :
    (name, column) ∈ renamings attributes ↔
      ∃ a ∈ attributes, a.name = name ∧ a.columnName = some column := by
  simp only [renamings, List.mem_filterMap, Option.map_eq_some_iff, Prod.mk.injEq]
  constructor
  · rintro ⟨a, ha, _, hc, rfl, rfl⟩
    exact ⟨a, ha, rfl, hc⟩
  · rintro ⟨a, ha, rfl, hc⟩
    exact ⟨a, ha, column, hc, rfl, rfl⟩

private theorem renamings_keys_sublist (attributes : List Attribute) :
    ((renamings attributes).map Prod.fst).Sublist (attributes.map Attribute.name) := by
  induction attributes with
  | nil => exact List.Sublist.refl _
  | cons a rest ih =>
    cases hc : a.columnName with
    | none =>
      simp only [renamings, List.filterMap_cons, hc, Option.map_none]
      exact ih.cons a.name
    | some column =>
      simp only [renamings, List.filterMap_cons, hc, Option.map_some]
      exact ih.cons_cons a.name

private theorem foldl_rename (attributes : List Attribute) (columns : Columns) :
    attributes.foldl rename columns =
      ⟨columns.toColumn.override ⟨renamings attributes⟩,
        columns.toAttribute.override ⟨(renamings attributes).map Prod.swap⟩⟩ := by
  induction attributes generalizing columns with
  | nil => rfl
  | cons a rest ih =>
    rw [List.foldl_cons, ih]
    cases hc : a.columnName with
    | none => simp only [rename, renamings, hc, List.filterMap_cons, Option.map_none]
    | some column =>
      simp only [rename, renamings, hc, List.filterMap_cons, Option.map_some, List.map_cons]
      rfl

theorem ofAttributes_eq (attributes : List Attribute) :
    ofAttributes attributes =
      ⟨.ofList (renamings attributes), .ofList ((renamings attributes).map Prod.swap)⟩ :=
  foldl_rename attributes empty

theorem column_of_isIdentity {columns : Columns} (h : columns.isIdentity = true) (name : String) :
    columns.column name = name := by
  have hnil : columns.toColumn.entries = [] := List.isEmpty_iff.mp h
  rw [column, Dict.get?, hnil]
  rfl

theorem lowerRecord_single (columns : Columns) (name : String) (value : Json) :
    columns.lowerRecord ⟨[(name, value)]⟩ = ⟨[(columns.column name, value)]⟩ := by
  unfold lowerRecord
  split
  · rename_i hi
    rw [column_of_isIdentity hi]
  · rfl

end Columns

namespace Model

variable {model : Model}

/-- The names that may stand in records and criteria. -/
def names (model : Model) : List String :=
  model.attributes.keys ++ model.primaryKey :: if model.role.isEdge then edgeAttributes else []

theorem recognizes_iff {name : String} : model.recognizes name ↔ name ∈ model.names := by
  rw [recognizes, Bool.or_eq_true, Bool.or_eq_true, Bool.and_eq_true, Dict.contains_iff,
    beq_iff_eq, List.contains_iff_mem, or_assoc, names, List.mem_append, List.mem_cons]
  cases model.role.isEdge <;> simp

/-- No two recognized names share a column. -/
def ColumnsDistinct (model : Model) : Prop :=
  ∀ j k, model.recognizes j → model.recognizes k →
    model.columns.column j = model.columns.column k → j = k

instance (model : Model) : Decidable model.ColumnsDistinct :=
  decidable_of_iff (∀ j ∈ model.names, ∀ k ∈ model.names,
      model.columns.column j = model.columns.column k → j = k) <| by
    simp only [ColumnsDistinct, recognizes_iff]
    exact ⟨fun h j k hj hk => h j hj k hk, fun h j hj k hk => h j k hj hk⟩

theorem AttributesNamed.values_names (h : model.AttributesNamed) :
    model.attributes.values.map Attribute.name = model.attributes.keys := by
  rw [Dict.values, Dict.keys, List.map_map]
  exact List.map_congr_left h.name_eq

theorem AttributesNamed.mem_values_iff (h : model.AttributesNamed) {a : Attribute} :
    a ∈ model.attributes.values ↔ model.attribute? a.name = some a := by
  rw [attribute?, Dict.get?_eq_some_iff h.ordered]
  constructor
  · intro ha
    obtain ⟨entry, he, rfl⟩ := List.mem_map.mp ha
    rw [h.name_eq entry he]
    exact he
  · exact fun he => List.mem_map.mpr ⟨_, he, rfl⟩

theorem AttributesNamed.name_of_attribute? (h : model.AttributesNamed) {name : String}
    {a : Attribute} (ha : model.attribute? name = some a) : a.name = name :=
  h.name_eq (name, a) ((Dict.get?_eq_some_iff h.ordered).mp ha)

theorem recognizes_of_attribute? {name : String} {a : Attribute}
    (h : model.attribute? name = some a) : model.recognizes name := by
  have hc : model.attributes.contains name = true := by
    rw [Dict.contains, ← attribute?, h, Option.isSome_some]
  rw [recognizes, hc, Bool.true_or, Bool.true_or]

private theorem AttributesNamed.mem_renamings_iff (h : model.AttributesNamed)
    {name column : String} :
    (name, column) ∈ Columns.renamings model.attributes.values ↔
      ∃ a, model.attribute? name = some a ∧ a.columnName = some column := by
  rw [Columns.mem_renamings]
  constructor
  · rintro ⟨a, ha, rfl, hc⟩
    exact ⟨a, h.mem_values_iff.mp ha, hc⟩
  · rintro ⟨a, ha, hc⟩
    have hname := h.name_of_attribute? ha
    subst hname
    exact ⟨a, h.mem_values_iff.mpr ha, rfl, hc⟩

private theorem AttributesNamed.toColumn_get?_iff (h : model.AttributesNamed)
    {name column : String} :
    model.columns.toColumn.get? name = some column ↔
      ∃ a, model.attribute? name = some a ∧ a.columnName = some column := by
  have hnodup : ((Columns.renamings model.attributes.values).map Prod.fst).Nodup := by
    apply List.Nodup.sublist (Columns.renamings_keys_sublist _)
    rw [h.values_names]
    exact h.ordered.nodup_keys
  rw [columns, Columns.ofAttributes_eq, Dict.get?_eq_some_iff (Dict.ordered_ofList _),
    (Dict.ofList_perm hnodup).mem_iff, h.mem_renamings_iff]

theorem AttributesNamed.column_eq (h : model.AttributesNamed) {name : String} {a : Attribute}
    (ha : model.attribute? name = some a) : model.columns.column name = a.column := by
  rw [Columns.column, Attribute.column]
  cases hc : a.columnName with
  | some column => rw [h.toColumn_get?_iff.mpr ⟨a, ha, hc⟩, Option.getD_some, Option.getD_some]
  | none =>
    cases hget : model.columns.toColumn.get? name with
    | none => exact (h.name_of_attribute? ha).symm
    | some column =>
      obtain ⟨b, hb, hb'⟩ := h.toColumn_get?_iff.mp hget
      rw [ha] at hb
      cases hb
      cases hc.symm.trans hb'

private theorem AttributesNamed.column_of_attribute?_eq_none (h : model.AttributesNamed)
    {name : String} (ha : model.attribute? name = none) : model.columns.column name = name := by
  rw [Columns.column]
  cases hget : model.columns.toColumn.get? name with
  | none => rfl
  | some column =>
    obtain ⟨a, ha', _⟩ := h.toColumn_get?_iff.mp hget
    cases ha.symm.trans ha'

private theorem AttributesNamed.attributeName_cases (h : model.AttributesNamed) (column : String) :
    (∃ a, model.attribute? (model.columns.attributeName column) = some a ∧
      a.columnName = some column) ∨
    (model.columns.attributeName column = column ∧
      ∀ name a, model.attribute? name = some a → a.columnName ≠ some column) := by
  have hget : model.columns.toAttribute =
      .ofList ((Columns.renamings model.attributes.values).map Prod.swap) := by
    rw [columns, Columns.ofAttributes_eq]
  rw [Columns.attributeName]
  cases hname : model.columns.toAttribute.get? column with
  | some name =>
    rw [hget] at hname
    obtain ⟨entry, he, heq⟩ := List.mem_map.mp (Dict.mem_of_get?_ofList hname)
    have hentry : entry = (name, column) := by
      rw [← Prod.swap_swap entry, heq]
      rfl
    rw [hentry] at he
    exact .inl (h.mem_renamings_iff.mp he)
  | none =>
    refine .inr ⟨rfl, ?_⟩
    intro name a ha hc
    rw [hget, Dict.get?_ofList_eq_none_iff] at hname
    have hm := h.mem_renamings_iff.mpr ⟨a, ha, hc⟩
    exact hname (List.mem_map.mpr ⟨_, List.mem_map_of_mem hm, rfl⟩)

theorem ColumnsDistinct.attributeName_column (hd : model.ColumnsDistinct)
    (h : model.AttributesNamed) {name : String} (hr : model.recognizes name) :
    model.columns.attributeName (model.columns.column name) = name := by
  rcases h.attributeName_cases (model.columns.column name) with ⟨a, ha, hc⟩ | ⟨heq, hnone⟩
  · apply hd _ _ (recognizes_of_attribute? ha) hr
    rw [h.column_eq ha, Attribute.column, hc, Option.getD_some]
  · rw [heq]
    cases ha : model.attribute? name with
    | none => exact h.column_of_attribute?_eq_none ha
    | some a =>
      cases hc : a.columnName with
      | none => rw [h.column_eq ha, Attribute.column, hc, Option.getD_none, h.name_of_attribute? ha]
      | some column =>
        have hcolumn : model.columns.column name = column := by
          rw [h.column_eq ha, Attribute.column, hc, Option.getD_some]
        exact absurd (hcolumn ▸ hc) (hnone name a ha)

end Model

end GraphRecords
