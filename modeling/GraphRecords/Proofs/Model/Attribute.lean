import GraphRecords.Model.Attribute
import GraphRecords.Proofs.Dict.Entries
import GraphRecords.Proofs.Outcome

/-!
# Attribute definitions

What a dictionary has to be like to define an attribute, and the attribute that it then defines.
The shape of what concerns members is only looked at in a to-many association.
-/

namespace GraphRecords.Attribute

open Outcome

variable {name property : String} {fields : Record} {a : Attribute}

private theorem textProperty_eq_ok_iff {text : Option String} :
    textProperty fields property = .ok text ↔ fields.get? property = text.map .str := by
  unfold textProperty
  cases fields.get? property with
  | none => cases text <;> simp
  | some value => cases value <;> cases text <;> simp

private theorem exists_flagProperty_iff : (∃ flag, flagProperty fields property = .ok flag) ↔
    ∀ value ∈ fields.get? property, ∃ flag, value = .bool flag := by
  unfold flagProperty
  cases fields.get? property with
  | none => simp
  | some value => cases value <;> simp

private theorem checkProperties_eq_ok_iff :
    checkProperties fields = .ok () ↔ ∀ key ∈ fields.keys, key ∈ attributeProperties := by
  unfold checkProperties
  split
  · rename_i hnone
    refine ⟨fun _ key hkey => ?_, fun _ => rfl⟩
    simpa [isAttributeProperty] using List.filter_eq_nil_iff.mp hnone key hkey
  · rename_i hsome
    refine ⟨nofun, fun h => absurd (List.filter_eq_nil_iff.mpr fun key hkey => ?_) hsome⟩
    simpa [isAttributeProperty] using h key hkey

private theorem readType_eq_ok_iff {type : Option ValueType} :
    readType fields = .ok type ↔ fields.get? "type" = type.map (.str ·.name) := by
  constructor
  · intro h
    unfold readType at h
    split at h
    · rename_i hget
      cases h
      exact hget
    · rename_i text hget
      split at h
      · rename_i found hfound
        cases h
        have hname : found.name = text := by simpa using List.find?_some hfound
        rw [hget, Option.map_some, hname]
      · cases h
    · cases h
  · intro h
    rw [readType, h]
    cases type with
    | none => rfl
    | some type => simp only [Option.map_some, ValueType.ofName?_name]

/-- The association that a dictionary declares. -/
inductive Declares (fields : Record) : Option Association → Prop
  | plain (hmodel : fields.get? "model" = none) (hcollection : fields.get? "collection" = none) :
      Declares fields none
  | model {target : String} (hmodel : fields.get? "model" = some (.str target))
      (hcollection : fields.get? "collection" = none) :
      Declares fields (some (.model (lowercase target)))
  | collection {target : String} {via through : Option String} {dominant : Bool}
      (hmodel : fields.get? "model" = none)
      (hcollection : fields.get? "collection" = some (.str target))
      (hvia : fields.get? "via" = via.map .str)
      (hthrough : fields.get? "through" = through.map .str)
      (hdominant : flagProperty fields "dominant" = .ok dominant) :
      Declares fields (some (.collection (lowercase target) via (through.map lowercase) dominant))

private theorem readAssociation_eq_ok_iff {association : Option Association} :
    readAssociation fields = .ok association ↔ Declares fields association := by
  constructor
  · intro h
    simp only [readAssociation, bind_eq_ok_iff, textProperty_eq_ok_iff] at h
    obtain ⟨model, hmodel, collection, hcollection, h⟩ := h
    cases model with
    | none =>
      cases collection with
      | none =>
        cases h
        exact .plain hmodel hcollection
      | some target =>
        simp only [bind_eq_ok_iff, textProperty_eq_ok_iff] at h
        obtain ⟨via, hvia, through, hthrough, dominant, hdominant, h⟩ := h
        cases h
        exact .collection hmodel hcollection hvia hthrough hdominant
    | some target =>
      cases collection with
      | none =>
        cases h
        exact .model hmodel hcollection
      | some => cases h
  · intro h
    simp only [readAssociation, bind_eq_ok_iff, textProperty_eq_ok_iff]
    cases h with
    | plain hmodel hcollection => exact ⟨none, hmodel, none, hcollection, rfl⟩
    | @model target hmodel hcollection => exact ⟨some target, hmodel, none, hcollection, rfl⟩
    | @collection target via through dominant hmodel hcollection hvia hthrough hdominant =>
      refine ⟨none, hmodel, some target, hcollection, ?_⟩
      simp only [bind_eq_ok_iff, textProperty_eq_ok_iff]
      exact ⟨via, hvia, through, hthrough, dominant, hdominant, rfl⟩

/-- The attribute is what the dictionary defines under the name. -/
structure ReadsAs (name : String) (fields : Record) (a : Attribute) : Prop where
  name_eq : a.name = name
  properties (key : String) (h : key ∈ fields.keys) : key ∈ attributeProperties
  type : fields.get? "type" = a.valueType.map (.str ·.name)
  association : Declares fields a.association
  untyped (h : a.association.isSome = true) : a.valueType = none
  required : flagProperty fields "required" = .ok a.required
  allowNull : flagProperty fields "allowNull" = .ok a.allowNull
  autoCreatedAt : flagProperty fields "autoCreatedAt" = .ok a.autoCreatedAt
  autoUpdatedAt : flagProperty fields "autoUpdatedAt" = .ok a.autoUpdatedAt
  columnName : fields.get? "columnName" = a.columnName.map .str
  defaultValue : a.defaultValue = fields.get? "defaultsTo"

theorem ofFields_eq_ok_iff : ofFields name fields = .ok a ↔ ReadsAs name fields a := by
  simp only [ofFields, bind_eq_ok_iff, readType_eq_ok_iff, readAssociation_eq_ok_iff]
  constructor
  · rintro ⟨_, hproperties, type, htype, association, hassociation, h⟩
    split at h
    · cases h
    · rename_i htyped
      simp only [bind_eq_ok_iff, textProperty_eq_ok_iff] at h
      obtain ⟨required, hrequired, allowNull, hallowNull, autoCreatedAt, hautoCreatedAt,
        autoUpdatedAt, hautoUpdatedAt, columnName, hcolumnName, h⟩ := h
      cases h
      exact {
        name_eq := rfl
        properties := checkProperties_eq_ok_iff.mp hproperties
        type := htype
        association := hassociation
        untyped := fun h => by simpa [show association.isSome = true from h] using htyped
        required := hrequired
        allowNull := hallowNull
        autoCreatedAt := hautoCreatedAt
        autoUpdatedAt := hautoUpdatedAt
        columnName := hcolumnName
        defaultValue := rfl }
  · intro h
    refine ⟨(), checkProperties_eq_ok_iff.mpr h.properties, a.valueType, h.type, a.association,
      h.association, ?_⟩
    have htyped : ¬ (a.association.isSome && a.valueType.isSome) = true := by
      intro htyped
      rw [Bool.and_eq_true] at htyped
      rw [h.untyped htyped.1] at htyped
      cases htyped.2
    rw [if_neg htyped]
    simp only [bind_eq_ok_iff, textProperty_eq_ok_iff]
    refine ⟨a.required, h.required, a.allowNull, h.allowNull, a.autoCreatedAt, h.autoCreatedAt,
      a.autoUpdatedAt, h.autoUpdatedAt, a.columnName, h.columnName, ?_⟩
    rw [← h.name_eq, ← h.defaultValue]

theorem parse_eq_ok_iff {raw : Json} :
    parse name raw = .ok a ↔ ∃ fields, raw = .obj fields ∧ ReadsAs name fields a := by
  cases raw with
  | obj fields => simp [parse, ofFields_eq_ok_iff]
  | null | bool | num | str | arr => simp [parse]

theorem parse_name {raw : Json} (h : parse name raw = .ok a) : a.name = name := by
  obtain ⟨fields, _, h⟩ := parse_eq_ok_iff.mp h
  exact h.name_eq

theorem parse_untyped {raw : Json} (h : parse name raw = .ok a)
    (ha : a.association.isSome = true) : a.valueType = none := by
  obtain ⟨fields, _, h⟩ := parse_eq_ok_iff.mp h
  exact h.untyped ha

/-- The dictionary can define an attribute. What only concerns to-many associations has to be in
shape just where there is one. -/
structure Definable (fields : Record) : Prop where
  properties (key : String) (h : key ∈ fields.keys) : key ∈ attributeProperties
  type (value : Json) (h : value ∈ fields.get? "type") : ∃ type : ValueType, value = .str type.name
  texts (property : String) (hproperty : property ∈ ["model", "collection", "columnName"])
    (value : Json) (h : value ∈ fields.get? property) : ∃ text, value = .str text
  flags (property : String)
    (hproperty : property ∈ ["required", "allowNull", "autoCreatedAt", "autoUpdatedAt"])
    (value : Json) (h : value ∈ fields.get? property) : ∃ flag, value = .bool flag
  single : ¬ (fields.contains "model" = true ∧ fields.contains "collection" = true)
  untyped (h : fields.contains "type" = true) :
    fields.contains "model" = false ∧ fields.contains "collection" = false
  joined (hcollection : fields.contains "collection" = true) (property : String)
    (hproperty : property ∈ ["via", "through"]) (value : Json)
    (h : value ∈ fields.get? property) : ∃ text, value = .str text
  dominant (hcollection : fields.contains "collection" = true) (value : Json)
    (h : value ∈ fields.get? "dominant") : ∃ flag, value = .bool flag

private theorem Definable.exists_declares (h : Definable fields) :
    ∃ association, Declares fields association := by
  have htext (property : String) (hproperty : property ∈ ["model", "collection", "columnName"]) :
      ∃ text : Option String, fields.get? property = text.map .str :=
    exists_eq_map_iff.mpr (h.texts property hproperty)
  obtain ⟨model, hmodel⟩ := htext "model" (by decide)
  obtain ⟨collection, hcollection⟩ := htext "collection" (by decide)
  cases model with
  | none =>
    cases collection with
    | none => exact ⟨_, .plain hmodel hcollection⟩
    | some target =>
      have hpresent : fields.contains "collection" = true := by
        rw [Dict.contains, hcollection]
        rfl
      obtain ⟨via, hvia⟩ := exists_eq_map_iff.mpr (h.joined hpresent "via" (by decide))
      obtain ⟨through, hthrough⟩ := exists_eq_map_iff.mpr (h.joined hpresent "through" (by decide))
      obtain ⟨dominant, hdominant⟩ := exists_flagProperty_iff.mpr (h.dominant hpresent)
      exact ⟨_, .collection hmodel hcollection hvia hthrough hdominant⟩
  | some target =>
    cases collection with
    | none => exact ⟨_, .model hmodel hcollection⟩
    | some other =>
      refine absurd ⟨?_, ?_⟩ h.single
      · rw [Dict.contains, hmodel]
        rfl
      · rw [Dict.contains, hcollection]
        rfl

theorem Declares.text {association : Option Association} (h : Declares fields association)
    (hproperty : property ∈ ["model", "collection"]) :
    ∃ text : Option String, fields.get? property = text.map .str := by
  simp only [List.mem_cons, List.not_mem_nil, or_false] at hproperty
  cases h with
  | plain hmodel hcollection =>
    rcases hproperty with rfl | rfl
    · exact ⟨none, hmodel⟩
    · exact ⟨none, hcollection⟩
  | @model target hmodel hcollection =>
    rcases hproperty with rfl | rfl
    · exact ⟨some target, hmodel⟩
    · exact ⟨none, hcollection⟩
  | @collection target _ _ _ hmodel hcollection =>
    rcases hproperty with rfl | rfl
    · exact ⟨none, hmodel⟩
    · exact ⟨some target, hcollection⟩

private theorem Declares.isSome_eq {association : Option Association}
    (h : Declares fields association) :
    association.isSome = (fields.contains "model" || fields.contains "collection") := by
  cases h with
  | plain hmodel hcollection | model hmodel hcollection | collection hmodel hcollection =>
    simp [Dict.contains, hmodel, hcollection]

theorem Declares.single {association : Option Association} (h : Declares fields association) :
    ¬ (fields.contains "model" = true ∧ fields.contains "collection" = true) := by
  cases h with
  | plain hmodel hcollection | model hmodel hcollection | collection hmodel hcollection =>
    simp [Dict.contains, hmodel, hcollection]

theorem Declares.members {association : Option Association} (h : Declares fields association)
    (hpresent : fields.contains "collection" = true) :
    (∀ property ∈ ["via", "through"], ∀ value ∈ fields.get? property, ∃ text, value = .str text) ∧
      ∀ value ∈ fields.get? "dominant", ∃ flag, value = .bool flag := by
  cases h with
  | plain _ hcollection | model _ hcollection =>
    rw [Dict.contains, hcollection] at hpresent
    cases hpresent
  | collection _ _ hvia hthrough hdominant =>
    refine ⟨fun property hproperty => ?_, exists_flagProperty_iff.mp ⟨_, hdominant⟩⟩
    simp only [List.mem_cons, List.not_mem_nil, or_false] at hproperty
    rcases hproperty with rfl | rfl
    · exact exists_eq_map_iff.mp ⟨_, hvia⟩
    · exact exists_eq_map_iff.mp ⟨_, hthrough⟩

private theorem ReadsAs.definable (h : ReadsAs name fields a) : Definable fields where
  properties := h.properties
  type := exists_eq_map_iff.mp ⟨_, h.type⟩
  texts property hproperty := by
    simp only [List.mem_cons, List.not_mem_nil, or_false] at hproperty
    rcases hproperty with rfl | rfl | rfl
    · exact exists_eq_map_iff.mp (h.association.text (by decide))
    · exact exists_eq_map_iff.mp (h.association.text (by decide))
    · exact exists_eq_map_iff.mp ⟨_, h.columnName⟩
  flags property hproperty := by
    simp only [List.mem_cons, List.not_mem_nil, or_false] at hproperty
    apply exists_flagProperty_iff.mp
    rcases hproperty with rfl | rfl | rfl | rfl
    · exact ⟨_, h.required⟩
    · exact ⟨_, h.allowNull⟩
    · exact ⟨_, h.autoCreatedAt⟩
    · exact ⟨_, h.autoUpdatedAt⟩
  single := h.association.single
  untyped htype := by
    rw [← Bool.or_eq_false_iff, ← h.association.isSome_eq, Bool.eq_false_iff]
    intro hassociation
    rw [Dict.contains, h.type, h.untyped hassociation] at htype
    cases htype
  joined hcollection := (h.association.members hcollection).1
  dominant hcollection := (h.association.members hcollection).2

private theorem Definable.exists_readsAs (h : Definable fields) (name : String) :
    ∃ a, ReadsAs name fields a := by
  obtain ⟨association, hassociation⟩ := h.exists_declares
  obtain ⟨type, htype⟩ := exists_eq_map_iff.mpr h.type
  have hflag (property : String)
      (hproperty : property ∈ ["required", "allowNull", "autoCreatedAt", "autoUpdatedAt"]) :
      ∃ flag, flagProperty fields property = .ok flag :=
    exists_flagProperty_iff.mpr (h.flags property hproperty)
  obtain ⟨required, hrequired⟩ := hflag "required" (by decide)
  obtain ⟨allowNull, hallowNull⟩ := hflag "allowNull" (by decide)
  obtain ⟨autoCreatedAt, hautoCreatedAt⟩ := hflag "autoCreatedAt" (by decide)
  obtain ⟨autoUpdatedAt, hautoUpdatedAt⟩ := hflag "autoUpdatedAt" (by decide)
  obtain ⟨columnName, hcolumnName⟩ :=
    exists_eq_map_iff.mpr (h.texts "columnName" (by decide))
  refine ⟨⟨name, type, fields.get? "defaultsTo", required, allowNull, autoCreatedAt,
    autoUpdatedAt, association, columnName⟩, {
      name_eq := rfl
      properties := h.properties
      type := htype
      association := hassociation
      untyped := fun hsome => ?_
      required := hrequired
      allowNull := hallowNull
      autoCreatedAt := hautoCreatedAt
      autoUpdatedAt := hautoUpdatedAt
      columnName := hcolumnName
      defaultValue := rfl }⟩
  change association.isSome = true at hsome
  cases type with
  | none => rfl
  | some type =>
    have hfree := h.untyped (by rw [Dict.contains, htype]; rfl)
    rw [hassociation.isSome_eq, hfree.1, hfree.2] at hsome
    cases hsome

/-- A dictionary is read as an attribute exactly when it can define one. -/
theorem exists_parse_iff (name : String) {raw : Json} :
    (∃ a, parse name raw = .ok a) ↔ ∃ fields, raw = .obj fields ∧ Definable fields := by
  simp only [parse_eq_ok_iff]
  constructor
  · rintro ⟨a, fields, rfl, h⟩
    exact ⟨fields, rfl, h.definable⟩
  · rintro ⟨fields, rfl, h⟩
    obtain ⟨a, ha⟩ := h.exists_readsAs name
    exact ⟨a, fields, rfl, ha⟩

/-- What is said about members is in shape: names are texts and the flag is one. -/
structure MembersShaped (fields : Record) : Prop where
  texts (property : String) (hproperty : property ∈ ["via", "through"]) (value : Json)
    (h : value ∈ fields.get? property) : ∃ text, value = .str text
  dominant (value : Json) (h : value ∈ fields.get? "dominant") : ∃ flag, value = .bool flag

/-- The dictionary has the shape of a definition, whatever kind of attribute it is for. -/
structure Shaped (fields : Record) : Prop where
  properties (key : String) (h : key ∈ fields.keys) : key ∈ attributeProperties
  type (value : Json) (h : value ∈ fields.get? "type") : ∃ type : ValueType, value = .str type.name
  texts (property : String)
    (hproperty : property ∈ ["model", "collection", "via", "through", "columnName"])
    (value : Json) (h : value ∈ fields.get? property) : ∃ text, value = .str text
  flags (property : String)
    (hproperty : property ∈ ["required", "allowNull", "autoCreatedAt", "autoUpdatedAt", "dominant"])
    (value : Json) (h : value ∈ fields.get? property) : ∃ flag, value = .bool flag
  single : ¬ (fields.contains "model" = true ∧ fields.contains "collection" = true)
  untyped (h : fields.contains "type" = true) :
    fields.contains "model" = false ∧ fields.contains "collection" = false

theorem Shaped.members (h : Shaped fields) : MembersShaped fields where
  texts property hproperty := by
    apply h.texts property
    simp only [List.mem_cons, List.not_mem_nil, or_false] at hproperty ⊢
    tauto
  dominant := h.flags "dominant" (by decide)

private theorem Shaped.definable (h : Shaped fields) : Definable fields where
  properties := h.properties
  type := h.type
  texts property hproperty := by
    apply h.texts property
    simp only [List.mem_cons, List.not_mem_nil, or_false] at hproperty ⊢
    tauto
  flags property hproperty := by
    apply h.flags property
    simp only [List.mem_cons, List.not_mem_nil, or_false] at hproperty ⊢
    tauto
  single := h.single
  untyped := h.untyped
  joined _ := h.members.texts
  dominant _ := h.members.dominant

private theorem Definable.shaped (h : Definable fields) (hmembers : MembersShaped fields) :
    Shaped fields where
  properties := h.properties
  type := h.type
  texts property hproperty := by
    by_cases hjoined : property ∈ ["via", "through"]
    · exact hmembers.texts property hjoined
    · apply h.texts property
      simp only [List.mem_cons, List.not_mem_nil, or_false] at hproperty hjoined ⊢
      tauto
  flags property hproperty := by
    by_cases hdominant : property = "dominant"
    · exact hdominant ▸ hmembers.dominant
    · apply h.flags property
      simp only [List.mem_cons, List.not_mem_nil, or_false] at hproperty ⊢
      tauto
  single := h.single
  untyped := h.untyped

/-- The dictionaries that are read as attributes, and those of them that are in shape: all but the
ones that say something of members that is not, without being about members. -/
theorem parse_shaped_iff (name : String) (raw : Json) :
    ((∃ a, parse name raw = .ok a) ↔ ∃ fields, raw = .obj fields ∧ Definable fields) ∧
      ((∃ fields, raw = .obj fields ∧ Shaped fields) ↔
        (∃ a, parse name raw = .ok a) ∧ ∀ fields, raw = .obj fields → MembersShaped fields) := by
  refine ⟨exists_parse_iff name, ?_⟩
  rw [exists_parse_iff]
  constructor
  · rintro ⟨fields, rfl, h⟩
    refine ⟨⟨fields, rfl, h.definable⟩, ?_⟩
    rintro _ ⟨⟩
    exact h.members
  · rintro ⟨⟨fields, rfl, h⟩, hmembers⟩
    exact ⟨fields, rfl, h.shaped (hmembers fields rfl)⟩

/-- The other end of an association may be named by a number where there is no association. -/
theorem number_as_via_accepted :
    ¬ ∀ (name : String) (raw : Json) (a : Attribute), parse name raw = .ok a →
      ∃ fields, raw = .obj fields ∧ Shaped fields := by
  intro h
  obtain ⟨_, ⟨⟩, hshaped⟩ :=
    h "name" (.obj ⟨[("type", .str "string"), ("via", Json.nat 5)]⟩) _ rfl
  obtain ⟨_, ⟨⟩⟩ := hshaped.texts "via" (by decide) (Json.nat 5) rfl

end GraphRecords.Attribute
