import GraphRecords.Proofs.Columns.Renaming
import GraphRecords.Proofs.Query.Admission
import GraphRecords.Query.Logical

/-!
# Updates of edges

New records of an edge model need texts for the two ends of the edge. Updates are not asked for
them: the ends stay texts for sure only where the model itself declares them so that nothing else
can be set.
-/

namespace GraphRecords

/-- Both ends of an edge are texts. -/
def Dict.HasEnds (record : Record) : Prop :=
  ∀ endpoint ∈ edgeAttributes, (record.get? endpoint).any (·.isString) = true

instance (record : Record) : Decidable record.HasEnds :=
  inferInstanceAs (Decidable (∀ endpoint ∈ edgeAttributes, _))

/-- An end that is set is set to a text, and one that is not gets no number for a time. -/
def Model.KeepsEnds (model : Model) (given : Record) : Prop :=
  ∀ endpoint ∈ edgeAttributes, (∀ value ∈ given.get? endpoint, value.isString = true) ∧
    (given.get? endpoint = none → ∀ a ∈ model.attribute? endpoint, a.autoUpdatedAt = true →
      a.valueType ≠ some .number)

instance (model : Model) (given : Record) : Decidable (model.KeepsEnds given) :=
  inferInstanceAs (Decidable (∀ endpoint ∈ edgeAttributes, _ ∧ _))

/-- Nothing but a text can be set as this end. -/
def Model.EndIsText (schema : Schema) (model : Model) (endpoint : String) : Prop :=
  ∃ a, model.attribute? endpoint = some a ∧
    (a.isCollection = true ∨ ∀ value, a.Admits schema value → value.isString = true)

theorem Attribute.Admits.isString {schema : Schema} {a : Attribute} {value : Json}
    (h : a.Admits schema value) (hplain : a.association = none)
    (htype : a.valueType = some .string) (hnull : a.allowNull = false) : value.isString = true := by
  have hnotNull : value.isNull = false := by
    refine Bool.eq_false_iff.mpr fun hn => ?_
    have haccepts := h.null hn
    simp [Attribute.acceptsNull, Attribute.isSingular, hplain, htype, hnull,
      ValueType.acceptsNull] at haccepts
  have hconforms := h.conforms hnotNull
  simp only [Attribute.Conforms, hplain] at hconforms
  exact hconforms .string htype

private theorem Dict.hasEnds_override_iff {values : Record} (hv : values.Ordered) :
    (∀ record : Record, record.HasEnds → (record.override values).HasEnds) ↔
      ∀ endpoint ∈ edgeAttributes, (values.get? endpoint).all (·.isString) = true := by
  constructor
  · intro h endpoint he
    have hends : (⟨[("_from", .str ""), ("_to", .str "")]⟩ : Record).HasEnds := by decide
    have hset := h _ hends endpoint he
    rw [get?_override hv] at hset
    cases hvalue : values.get? endpoint with
    | none => rfl
    | some value => rwa [hvalue, Option.some_or, Option.any_some] at hset
  · intro h record hends endpoint he
    have hset := h endpoint he
    rw [get?_override hv]
    cases hvalue : values.get? endpoint with
    | none => rw [Option.none_or, hends endpoint he]
    | some value => rwa [hvalue, Option.all_some] at hset

namespace RecordRules

open Outcome

variable {rules : RecordRules} {given values : Record} {a : Attribute}
variable {attributes : List Attribute} {key : String} {value : Json}

/-- The time that an update adds for the attribute. -/
def stamp? (rules : RecordRules) (a : Attribute) : Option Json :=
  if a.autoUpdatedAt then some (rules.timestamp a) else none

private theorem get?_touch_self (rules : RecordRules) (values : Record) (a : Attribute) :
    (rules.touch values a).get? a.name = (values.get? a.name).or (rules.stamp? a) := by
  unfold touch stamp? Dict.contains
  cases hv : values.get? a.name with
  | some value => simp [hv]
  | none => cases a.autoUpdatedAt <;> simp [hv]

private theorem get?_touch_of_ne (values : Record) {name : String} (h : name ≠ a.name) :
    (rules.touch values a).get? name = values.get? name := by
  unfold touch
  split
  · rw [Dict.get?_insert, if_neg (Ne.symm h)]
  · rfl

private theorem touch_ordered (h : values.Ordered) (a : Attribute) :
    (rules.touch values a).Ordered := by
  unfold touch
  split
  · exact h.insert a.name _
  · exact h

private theorem foldl_touch_ordered (h : values.Ordered) (attributes : List Attribute) :
    (attributes.foldl rules.touch values).Ordered := by
  induction attributes generalizing values with
  | nil => exact h
  | cons a rest ih => exact ih (touch_ordered h a)

private theorem get?_foldl_touch_of_notMem {name : String}
    (h : name ∉ attributes.map Attribute.name)
    (values : Record) : (attributes.foldl rules.touch values).get? name = values.get? name := by
  induction attributes generalizing values with
  | nil => rfl
  | cons a rest ih =>
    simp only [List.map_cons, List.mem_cons, not_or] at h
    rw [List.foldl_cons, ih h.2, get?_touch_of_ne values h.1]

private theorem get?_foldl_touch (hnames : (attributes.map Attribute.name).Nodup)
    (ha : a ∈ attributes) (values : Record) :
    (attributes.foldl rules.touch values).get? a.name =
      (values.get? a.name).or (rules.stamp? a) := by
  induction attributes generalizing values with
  | nil => cases ha
  | cons b rest ih =>
    obtain ⟨hname, hnames⟩ := List.nodup_cons.mp hnames
    rw [List.foldl_cons]
    rcases List.mem_cons.mp ha with rfl | ha
    · rw [get?_foldl_touch_of_notMem hname, get?_touch_self]
    · have hne : a.name ≠ b.name := fun he => hname (he ▸ List.mem_map_of_mem ha)
      rw [ih hnames ha, get?_touch_of_ne values hne]

private theorem get?_touched (hnamed : rules.model.AttributesNamed) (given : Record)
    (name : String) :
    (rules.model.attributes.values.foldl rules.touch given).get? name =
      (given.get? name).or ((rules.model.attribute? name).bind rules.stamp?) := by
  cases ha : rules.model.attribute? name with
  | none =>
    rw [get?_foldl_touch_of_notMem, Option.bind_none, Option.or_none]
    rw [hnamed.values_names]
    exact Dict.get?_eq_none_iff.mp ha
  | some a =>
    obtain rfl := hnamed.name_of_attribute? ha
    have hnames : (rules.model.attributes.values.map Attribute.name).Nodup := by
      rw [hnamed.values_names]
      exact hnamed.ordered.nodup_keys
    rw [get?_foldl_touch hnames (hnamed.mem_values_iff.mpr ha), Option.bind_some]

private theorem all_isString_stamp? : (rules.stamp? a).all (·.isString) = true ↔
    (a.autoUpdatedAt = true → a.valueType ≠ some .number) := by
  unfold stamp? timestamp
  cases a.autoUpdatedAt with
  | false => simp
  | true =>
    cases a.valueType with
    | none => simp [Json.isString]
    | some type => cases type <;> simp [Json.isString, Json.int]

private theorem keepsEnds_iff (hnamed : rules.model.AttributesNamed) :
    rules.model.KeepsEnds given ↔ ∀ endpoint ∈ edgeAttributes,
      ((rules.model.attributes.values.foldl rules.touch given).get? endpoint).all (·.isString) =
        true := by
  refine forall₂_congr fun endpoint _ => ?_
  rw [get?_touched hnamed]
  cases given.get? endpoint with
  | some value => simp
  | none =>
    cases rules.model.attribute? endpoint with
    | none => simp
    | some a => simp [all_isString_stamp?]

private theorem valuesToSet_eq_ok {raw : Option Json} (h : rules.valuesToSet raw = .ok values) :
    ∃ given, raw = some (.obj given) ∧
      (∀ entry ∈ given.entries, rules.checkSetting entry = .ok ()) ∧
      values = rules.model.attributes.values.foldl rules.touch given := by
  unfold valuesToSet at h
  split at h
  · rename_i given
    split at h
    · cases h
    · obtain ⟨_, hchecks, h⟩ := bind_eq_ok_iff.mp h
      cases h
      exact ⟨given, rfl, forM_eq_ok_iff.mp hchecks, rfl⟩
  · cases h

private theorem checkSetting_eq_ok_iff : rules.checkSetting (key, value) = .ok () ↔
    rules.model.isCollection key = false ∧ rules.checkValue key value = .ok () ∧
      (value.isNull && (rules.model.attribute? key).any (·.required)) = false := by
  unfold checkSetting
  cases rules.model.isCollection key with
  | true => exact ⟨nofun, nofun⟩
  | false =>
    simp only [Bool.false_eq_true, if_false, bind_eq_ok_iff, mapError_eq_ok_iff, true_and]
    cases value.isNull && (rules.model.attribute? key).any (·.required) with
    | true => exact ⟨fun ⟨_, _, h⟩ => (nomatch h), nofun⟩
    | false => exact ⟨fun ⟨_, h, _⟩ => ⟨h, rfl⟩, fun ⟨h, _⟩ => ⟨(), h, rfl⟩⟩

private theorem checkSetting_of_declared (ha : rules.model.attribute? key = some a) :
    rules.checkSetting (key, value) = .ok () ↔
      a.isCollection = false ∧ a.Admits rules.schema value := by
  have hrequired : (value.isNull && a.required) = false ↔
      (a.required = true → value.isNull = false) := by
    cases value.isNull <;> cases a.required <;> simp
  rw [checkSetting_eq_ok_iff, admits_iff key, Model.isCollection, checkValue, ha,
    Option.any_some, Option.any_some, hrequired]

private theorem checkSetting_of_undeclared (ha : rules.model.attribute? key = none)
    (hr : rules.model.recognizes key = true) (value : Json) :
    rules.checkSetting (key, value) = .ok () := by
  simp [checkSetting_eq_ok_iff, checkValue, Model.isCollection, ha, hr]

end RecordRules

namespace LogicalQuery

open Outcome

variable {rules : RecordRules} {request : Request} {query : LogicalQuery} {given values : Record}

private theorem selecting_valuesToSet {model : Model} {criteria : Criteria} {start : LogicalQuery}
    (h : selecting model start criteria = .ready query) :
    query.valuesToSet = start.valuesToSet := by
  unfold selecting at h
  split at h
  · cases h
  · cases h
    rfl

private theorem normalize_update_eq_ready
    (h : normalize rules .update request = .ok (.ready query)) :
    ∃ values, rules.valuesToSet request.valuesToSet = .ok values ∧
      query.valuesToSet = some values := by
  obtain ⟨callMeta, _, h⟩ := bind_eq_ok_iff.mp h
  obtain ⟨criteria, _, h⟩ := bind_eq_ok_iff.mp h
  obtain ⟨values, hvalues, h⟩ := bind_eq_ok_iff.mp h
  exact ⟨values, mapError_eq_ok_iff.mp hvalues, selecting_valuesToSet (Except.ok.inj h)⟩

private theorem normalize_single {key : String} {value : Json}
    (h : rules.checkSetting (key, value) = .ok ()) :
    ∃ query, normalize rules .update { valuesToSet := some (.obj ⟨[(key, value)]⟩) } =
        .ok (.ready query) ∧
      query.valuesToSet =
        some (rules.model.attributes.values.foldl rules.touch ⟨[(key, value)]⟩) := by
  have hvalues : rules.valuesToSet (some (.obj ⟨[(key, value)]⟩)) =
      .ok (rules.model.attributes.values.foldl rules.touch ⟨[(key, value)]⟩) := by
    have hchecks : [(key, value)].forM rules.checkSetting = .ok () :=
      forM_eq_ok_iff.mpr (by simpa using h)
    simp only [RecordRules.valuesToSet, Dict.isEmpty, hchecks]
    rfl
  refine ⟨{
    method := .update, identity := rules.model.identity,
    criteria := some (({} : Criteria).mergeBindings rules.model.bindings),
    valuesToSet := some (rules.model.attributes.values.foldl rules.touch ⟨[(key, value)]⟩) },
    ?_, rfl⟩
  simp only [normalize, normalizeUpdate, hvalues]
  rfl

end LogicalQuery

namespace RecordRules

variable {rules : RecordRules} {given : Record}

private theorem not_number_of_admits_texts {schema : Schema} {a : Attribute}
    (htyped : a.association.isSome = true → a.valueType = none)
    (htext : a.isCollection = true ∨ ∀ value, a.Admits schema value → value.isString = true) :
    a.valueType ≠ some .number := by
  intro hnumber
  have hplain : a.association = none := by
    cases ha : a.association with
    | none => rfl
    | some association => cases hnumber.symm.trans (htyped (by rw [ha]; rfl))
  rcases htext with hcollection | htext
  · simp [Attribute.isCollection, hplain] at hcollection
  · have hadmits : a.Admits schema (Json.nat 0) := by
      refine ⟨fun _ => rfl, nofun, fun _ => ?_⟩
      simp [Attribute.Conforms, hplain, hnumber, ValueType.accepts, Json.isNumber, Json.nat]
    cases htext _ hadmits

private theorem keepsEnds_of_endIsText
    (htyped : ∀ a ∈ rules.model.attributes.values, a.association.isSome = true →
      a.valueType = none) (hnamed : rules.model.AttributesNamed)
    (hends : ∀ endpoint ∈ edgeAttributes, rules.model.EndIsText rules.schema endpoint)
    (hchecks : ∀ entry ∈ given.entries, rules.checkSetting entry = .ok ()) :
    rules.model.KeepsEnds given := by
  intro endpoint he
  obtain ⟨a, ha, htext⟩ := hends endpoint he
  constructor
  · intro value hvalue
    have hset := hchecks (endpoint, value) (Dict.mem_of_lookup hvalue)
    obtain ⟨hone, hadmits⟩ := (checkSetting_of_declared ha).mp hset
    rcases htext with hcollection | htext
    · cases hcollection.symm.trans hone
    · exact htext value hadmits
  · intro _ b hb _
    cases ha.symm.trans hb
    obtain rfl := hnamed.name_of_attribute? ha
    exact not_number_of_admits_texts (htyped a (hnamed.mem_values_iff.mpr ha)) htext

private theorem endIsText_of_settable {endpoint : String}
    (hr : rules.model.recognizes endpoint = true)
    (h : ∀ value, rules.checkSetting (endpoint, value) = .ok () → value.isString = true) :
    rules.model.EndIsText rules.schema endpoint := by
  cases ha : rules.model.attribute? endpoint with
  | none => cases h .null (checkSetting_of_undeclared ha hr .null)
  | some a =>
    refine ⟨a, ha, ?_⟩
    cases hc : a.isCollection with
    | true => exact .inl rfl
    | false => exact .inr fun value hv => h value ((checkSetting_of_declared ha).mpr ⟨hc, hv⟩)

end RecordRules

private theorem Model.recognizes_end {model : Model} (hedge : model.role.isEdge = true)
    {endpoint : String} (h : endpoint ∈ edgeAttributes) : model.recognizes endpoint = true := by
  rw [recognizes, hedge, List.contains_iff_mem.mpr h, Bool.and_true, Bool.or_true]

namespace LogicalQuery

/-- An update keeps the ends of all edges texts if and only if those that it sets are texts. All
updates do if and only if the model declares both ends so that nothing else can be set. -/
theorem update_keeps_ends_iff (datastores : List String) (d : Definition) (model : Model)
    (hd : d.attributes.Ordered) (h : d.resolve datastores = .ok model)
    (hedge : model.role.isEdge = true) (schema : Schema) (strict : Bool) (now : Instant) :
    (∀ (request : Request) (given : Record) (query : LogicalQuery) (values : Record),
      request.valuesToSet = some (.obj given) → given.Ordered →
      normalize ⟨model, schema, strict, now⟩ .update request = .ok (.ready query) →
      query.valuesToSet = some values →
      ((∀ record : Record, record.HasEnds → (record.override values).HasEnds) ↔
        model.KeepsEnds given)) ∧
    ((∀ (request : Request) (given : Record) (query : LogicalQuery) (values record : Record),
      request.valuesToSet = some (.obj given) → given.Ordered →
      normalize ⟨model, schema, strict, now⟩ .update request = .ok (.ready query) →
      query.valuesToSet = some values → record.HasEnds → (record.override values).HasEnds) ↔
        ∀ endpoint ∈ edgeAttributes, model.EndIsText schema endpoint) := by
  have hresolves := Definition.resolvesTo_of_resolve h
  let rules : RecordRules := ⟨model, schema, strict, now⟩
  have hnamed : rules.model.AttributesNamed := hresolves.attributesNamed hd
  have hone (request : Request) (given : Record) (query : LogicalQuery) (values : Record)
      (hrequest : request.valuesToSet = some (.obj given)) (hg : given.Ordered)
      (hready : normalize rules .update request = .ok (.ready query))
      (hvalues : query.valuesToSet = some values) :
      (∀ entry ∈ given.entries, rules.checkSetting entry = .ok ()) ∧
        ((∀ record : Record, record.HasEnds → (record.override values).HasEnds) ↔
          model.KeepsEnds given) := by
    obtain ⟨set, hset, hquery⟩ := normalize_update_eq_ready hready
    cases hquery.symm.trans hvalues
    obtain ⟨own, hown, hchecks, rfl⟩ := RecordRules.valuesToSet_eq_ok hset
    cases hown.symm.trans hrequest
    refine ⟨hchecks, ?_⟩
    rw [Dict.hasEnds_override_iff (RecordRules.foldl_touch_ordered hg _)]
    exact (RecordRules.keepsEnds_iff hnamed).symm
  refine ⟨?_, ?_, ?_⟩
  · intro request given query values hrequest hg hready hvalues
    exact (hone request given query values hrequest hg hready hvalues).2
  · intro hall endpoint he
    change rules.model.EndIsText rules.schema endpoint
    apply RecordRules.endIsText_of_settable (Model.recognizes_end hedge he)
    intro value hsettable
    obtain ⟨query, hready, hvalues⟩ := normalize_single hsettable
    have hg : (⟨[(endpoint, value)]⟩ : Record).Ordered := List.pairwise_singleton _ _
    have hkeeps := (hone _ _ query _ rfl hg hready hvalues).2.mp
      (fun record => hall _ _ query _ record rfl hg hready hvalues)
    exact (hkeeps endpoint he).1 value (by simp [Dict.get?, Dict.lookup])
  · intro hends request given query values record hrequest hg hready hvalues
    obtain ⟨hchecks, hiff⟩ := hone request given query values hrequest hg hready hvalues
    have hkeeps : rules.model.KeepsEnds given :=
      RecordRules.keepsEnds_of_endIsText (fun a => hresolves.untyped) hnamed hends hchecks
    exact hiff.mpr hkeeps record

private def owns (ends : List (String × Json)) : Definition where
  identity := some "owns"
  classType := some "Edge"
  edgeDefinition := some (.obj ⟨[("from", .arr [.str "person"]), ("to", .arr [.str "pet"])]⟩)
  attributes := ⟨ends⟩

private def declaredEnds : List (String × Json) :=
  [("_from", .obj ⟨[("type", .str "string")]⟩), ("_to", .obj ⟨[("type", .str "string")]⟩)]

/-- Ends that are declared to be texts stay texts. -/
theorem update_keeps_ends_iff_declared :
    ∃ model, (owns declaredEnds).resolve ["default"] = .ok model ∧ model.role.isEdge = true ∧
      ∀ (request : Request) (given : Record) (query : LogicalQuery) (values record : Record),
        request.valuesToSet = some (.obj given) → given.Ordered →
        normalize ⟨model, .empty, true, ⟨0, 0⟩⟩ .update request = .ok (.ready query) →
        query.valuesToSet = some values → record.HasEnds → (record.override values).HasEnds := by
  refine ⟨_, rfl, rfl, (update_keeps_ends_iff ["default"] (owns declaredEnds) _ (by decide) rfl rfl
    .empty true ⟨0, 0⟩).2.mpr ?_⟩
  intro endpoint he
  rcases List.mem_pair.mp he with rfl | rfl
  · exact ⟨_, rfl, .inr fun value hv => hv.isString rfl rfl rfl⟩
  · exact ⟨_, rfl, .inr fun value hv => hv.isString rfl rfl rfl⟩

/-- An end that is not declared can be set to a number. -/
theorem number_set_as_end :
    ¬ ∀ (datastores : List String) (d : Definition) (model : Model), d.attributes.Ordered →
      d.resolve datastores = .ok model → model.role.isEdge = true →
      ∀ (schema : Schema) (strict : Bool) (now : Instant) (request : Request)
        (query : LogicalQuery) (values record : Record),
      normalize ⟨model, schema, strict, now⟩ .update request = .ok (.ready query) →
      query.valuesToSet = some values → record.HasEnds → (record.override values).HasEnds := by
  intro h
  have hends := h ["default"] (owns []) _ (by decide) rfl rfl .empty true ⟨0, 0⟩
    { valuesToSet := some (.obj ⟨[("_from", Json.nat 5)]⟩) } _ ⟨[("_from", Json.nat 5)]⟩
    ⟨[("_from", .str "person/1"), ("_to", .str "pet/1")]⟩ rfl rfl (by decide)
  exact absurd hends (by decide)

end LogicalQuery

end GraphRecords
