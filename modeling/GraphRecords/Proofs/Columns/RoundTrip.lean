import GraphRecords.Proofs.Columns.Renaming

/-!
# Records through their columns

Naming a record by column and back gives the record again. This holds of all records of a model
exactly when no two of the names that it recognizes share a column, which nothing checks.
-/

namespace GraphRecords

namespace Model

variable {model : Model}

private theorem ColumnsDistinct.raiseRecord_lowerRecord (hd : model.ColumnsDistinct)
    (h : model.AttributesNamed) {record : Record} (hr : record.Ordered)
    (hk : ∀ key ∈ record.keys, model.recognizes key) :
    model.columns.raiseRecord (model.columns.lowerRecord record) = record := by
  unfold Columns.raiseRecord Columns.lowerRecord
  split
  · rfl
  · exact Dict.mapKeys_mapKeys_cancel hr (fun key hkey => hd.attributeName_column h (hk key hkey))

private theorem attributeName_column_of_single (name : String)
    (h : model.columns.raiseRecord (model.columns.lowerRecord ⟨[(name, .null)]⟩) =
      ⟨[(name, .null)]⟩) (hi : model.columns.isIdentity = false) :
    model.columns.attributeName (model.columns.column name) = name := by
  rw [Columns.raiseRecord, Columns.lowerRecord, hi] at h
  have hkeys : [model.columns.attributeName (model.columns.column name)] = [name] :=
    congrArg Dict.keys h
  exact List.head_eq_of_cons_eq hkeys

/-- Every record of recognized names survives the way to its columns and back if and only if no
two recognized names share a column. -/
theorem raise_lower_eq_iff (datastores : List String) (d : Definition) (model : Model)
    (hd : d.attributes.Ordered) (h : d.resolve datastores = .ok model) :
    (∀ record : Record, record.Ordered → (∀ key ∈ record.keys, model.recognizes key) →
      model.columns.raiseRecord (model.columns.lowerRecord record) = record) ↔
      model.ColumnsDistinct := by
  have hnamed := (Definition.resolvesTo_of_resolve h).attributesNamed hd
  constructor
  · intro hround j k hj hk he
    cases hi : model.columns.isIdentity with
    | true => rwa [Columns.column_of_isIdentity hi, Columns.column_of_isIdentity hi] at he
    | false =>
      have hsingle (name : String) (hn : model.recognizes name) :
          model.columns.attributeName (model.columns.column name) = name := by
        refine attributeName_column_of_single name ?_ hi
        apply hround _ (List.pairwise_singleton _ _)
        intro key hkey
        rwa [List.mem_singleton.mp hkey]
      rw [← hsingle j hj, he, hsingle k hk]
  · intro hdistinct record hr hk
    exact hdistinct.raiseRecord_lowerRecord hnamed hr hk

private def renamed (call name : String) : Definition where
  identity := some "pet"
  attributes := ⟨[("call", .obj ⟨[("columnName", .str call)]⟩),
    ("name", .obj ⟨[("columnName", .str name)]⟩)]⟩

/-- Two attributes stored each under the name of the other. -/
theorem raise_lower_eq_iff_swapped :
    ∃ model, (renamed "name" "call").resolve ["default"] = .ok model ∧
      ∀ record : Record, record.Ordered → (∀ key ∈ record.keys, model.recognizes key) →
        model.columns.raiseRecord (model.columns.lowerRecord record) = record :=
  ⟨_, rfl, (raise_lower_eq_iff ["default"] (renamed "name" "call") _ (by decide) rfl).mpr
    (by decide)⟩

/-- Of two attributes stored under one column, one is lost on the way. -/
theorem shared_column_loses_value :
    ¬ ∀ (datastores : List String) (d : Definition) (model : Model), d.attributes.Ordered →
      d.resolve datastores = .ok model → ∀ record : Record, record.Ordered →
        (∀ key ∈ record.keys, model.recognizes key) →
          model.columns.raiseRecord (model.columns.lowerRecord record) = record := by
  intro h
  have hrecord := h ["default"] (renamed "pet_name" "pet_name") _ (by decide) rfl
    ⟨[("call", .str "Rex"), ("name", .str "Sir Rex")]⟩ (by decide) (by decide)
  exact absurd (congrArg Dict.size hrecord) (by decide)

end Model

end GraphRecords
