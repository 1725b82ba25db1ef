import GraphRecords.Proofs.Columns.Renaming
import GraphRecords.Proofs.Query.Admission
import GraphRecords.Proofs.Query.Creation

/-!
# Valid new records

New records hold what their caller gives and what is filled in where an attribute is left out.
What is given is checked. What is filled in is not, so a record is valid exactly where each of its
attributes admits what it was filled with.
-/

namespace GraphRecords

/-- Required attributes have values, and every attribute admits the value that it has. -/
structure Model.ValidRecord (schema : Schema) (model : Model) (record : Record) : Prop where
  present (a : Attribute) (ha : a ∈ model.attributes.values) (h : a.required = true) :
    record.contains a.name = true
  admits (a : Attribute) (ha : a ∈ model.attributes.values) (value : Json)
    (h : record.get? a.name = some value) : a.Admits schema value

namespace RecordRules

open Outcome

variable {rules : RecordRules} {given record next : Record} {a : Attribute}
variable {attributes : List Attribute}

/-- The attribute admits what it is filled with. Lists without members always pass. A timestamp
is neither a truth value nor the key of a target with numbers for keys; a default is any value. -/
def FillsAdmitted (rules : RecordRules) (a : Attribute) : Prop :=
  if a.isCollection then True
  else if a.isTimestamp then
    a.valueType ≠ some .boolean ∧ ∀ association ∈ a.association,
      rules.schema.isPrimaryKeyValue association.target (.str rules.now.render) = true
  else ∀ value ∈ a.defaultValue, a.Admits rules.schema value

instance (rules : RecordRules) (a : Attribute) : Decidable (rules.FillsAdmitted a) :=
  inferInstanceAs (Decidable (if a.isCollection then True
    else if a.isTimestamp then
      a.valueType ≠ some .boolean ∧ ∀ association ∈ a.association,
        rules.schema.isPrimaryKeyValue association.target (.str rules.now.render) = true
    else ∀ value ∈ a.defaultValue, a.Admits rules.schema value))

private theorem admits_timestamp_iff :
    a.Admits rules.schema (rules.timestamp a) ↔ a.Conforms rules.schema (rules.timestamp a) := by
  have hnull : (rules.timestamp a).isNull = false := by
    unfold timestamp
    split <;> rfl
  exact ⟨fun h => h.conforms hnull, fun h => ⟨fun _ => hnull, fun hn => by simp [hnull] at hn,
    fun _ => h⟩⟩

private theorem conforms_timestamp_iff (htyped : a.association.isSome = true → a.valueType = none)
    (hone : a.isCollection = false) : a.Conforms rules.schema (rules.timestamp a) ↔
      a.valueType ≠ some .boolean ∧ ∀ association ∈ a.association,
        rules.schema.isPrimaryKeyValue association.target (.str rules.now.render) = true := by
  unfold Attribute.Conforms timestamp
  cases ha : a.association with
  | none =>
    cases a.valueType with
    | none => simp
    | some type =>
      cases type <;>
        simp [ValueType.accepts, Json.isString, Json.isNumber, Json.isBool, Json.int]
  | some association =>
    cases association with
    | collection => simp [Attribute.isCollection, ha] at hone
    | model target =>
      have hnone : a.valueType = none := htyped (by rw [ha]; rfl)
      simp [hnone, Association.Takes, Association.target]

private theorem fillsAdmitted_iff (htyped : a.association.isSome = true → a.valueType = none) :
    (∀ value ∈ rules.fill? a, a.Admits rules.schema value) ↔ rules.FillsAdmitted a := by
  unfold fill? FillsAdmitted
  cases hc : a.isCollection with
  | true => simp [Attribute.admits_nil hc]
  | false =>
    cases ht : a.isTimestamp with
    | true =>
      simp only [Bool.false_eq_true, if_false, if_true, Option.mem_some_iff, forall_eq']
      rw [admits_timestamp_iff, conforms_timestamp_iff htyped hc]
    | false => simp

/-- How a record comes from a given one, once some attributes are completed. -/
structure Completes (rules : RecordRules) (attributes : List Attribute) (given record : Record) :
    Prop where
  get? (a : Attribute) (ha : a ∈ attributes) :
    record.get? a.name = (given.get? a.name).or (rules.fill? a)
  present (a : Attribute) (ha : a ∈ attributes) (h : a.required = true) :
    record.contains a.name = true
  notNull (a : Attribute) (ha : a ∈ attributes) (h : a.required = true) (value : Json)
    (hv : given.get? a.name = some value) : value.isNull = false
  other (name : String) (h : name ∉ attributes.map Attribute.name) :
    record.get? name = given.get? name

theorem complete_eq_ok (h : rules.complete given a = .ok record) :
    (∃ value, given.get? a.name = some value ∧ record = given ∧
      (a.required = true → value.isNull = false)) ∨
    (given.get? a.name = none ∧ record = given.insert? a.name (rules.fill? a) ∧
      (a.required = true → (rules.fill? a).isSome = true)) := by
  unfold complete at h
  split at h
  · rename_i value hvalue
    split at h
    · cases h
    · rename_i hnull
      cases h
      refine .inl ⟨value, hvalue, rfl, fun hrequired => ?_⟩
      simpa [hrequired] using hnull
  · rename_i hnone
    split at h
    · rename_i value hfill
      cases h
      exact .inr ⟨hnone, by rw [hfill, Dict.insert?], fun _ => by rw [hfill, Option.isSome_some]⟩
    · rename_i hfill
      split at h
      · cases h
      · rename_i hrequired
        cases h
        exact .inr ⟨hnone, by rw [hfill, Dict.insert?], fun hr => absurd hr hrequired⟩

theorem completes_of_complete (h : rules.complete given a = .ok record) :
    rules.Completes [a] given record := by
  rcases complete_eq_ok h with ⟨value, hvalue, rfl, hnull⟩ | ⟨hnone, rfl, hfilled⟩
  · refine ⟨?_, ?_, ?_, fun _ _ => rfl⟩
    · intro b hb
      rw [List.mem_singleton.mp hb, hvalue, Option.some_or]
    · intro b hb _
      rw [List.mem_singleton.mp hb, Dict.contains, hvalue, Option.isSome_some]
    · intro b hb hrequired other hother
      rw [List.mem_singleton.mp hb] at hrequired hother
      cases hvalue.symm.trans hother
      exact hnull hrequired
  · refine ⟨?_, ?_, ?_, ?_⟩
    · intro b hb
      rw [List.mem_singleton.mp hb, Dict.get?_insert?, if_pos rfl, hnone, Option.or_none,
        Option.none_or]
    · intro b hb hrequired
      rw [List.mem_singleton.mp hb] at hrequired ⊢
      rw [Dict.contains, Dict.get?_insert?, if_pos rfl, hnone, Option.or_none]
      exact hfilled hrequired
    · intro b hb _ value hvalue
      rw [List.mem_singleton.mp hb, hnone] at hvalue
      cases hvalue
    · intro name hname
      rw [Dict.get?_insert?, if_neg]
      rintro rfl
      exact hname List.mem_cons_self

theorem Completes.cons (hfirst : rules.Completes [a] given next)
    (hname : a.name ∉ attributes.map Attribute.name)
    (hrest : rules.Completes attributes next record) :
    rules.Completes (a :: attributes) given record := by
  have hsame : ∀ b ∈ attributes, next.get? b.name = given.get? b.name := by
    intro b hb
    apply hfirst.other
    intro hm
    exact hname (List.mem_singleton.mp hm ▸ List.mem_map_of_mem hb)
  refine ⟨?_, ?_, ?_, ?_⟩
  · intro b hb
    rcases List.mem_cons.mp hb with rfl | hb
    · rw [hrest.other _ hname, hfirst.get? b List.mem_cons_self]
    · rw [hrest.get? b hb, hsame b hb]
  · intro b hb hr
    rcases List.mem_cons.mp hb with rfl | hb
    · rw [Dict.contains, hrest.other _ hname]
      exact hfirst.present b List.mem_cons_self hr
    · exact hrest.present b hb hr
  · intro b hb hr value hv
    rcases List.mem_cons.mp hb with rfl | hb
    · exact hfirst.notNull b List.mem_cons_self hr value hv
    · exact hrest.notNull b hb hr value ((hsame b hb).trans hv)
  · intro name hn
    simp only [List.map_cons, List.mem_cons, not_or] at hn
    rw [hrest.other name hn.2, hfirst.other name (by simpa using hn.1)]

private theorem completes_of_foldlM (hnames : (attributes.map Attribute.name).Nodup)
    (h : attributes.foldlM rules.complete given = .ok record) :
    rules.Completes attributes given record := by
  induction attributes generalizing given with
  | nil =>
    cases h
    refine ⟨?_, ?_, ?_, fun _ _ => rfl⟩ <;> exact fun _ hm => nomatch hm
  | cons a rest ih =>
    rw [List.foldlM_cons] at h
    obtain ⟨next, hnext, hrest⟩ := bind_eq_ok_iff.mp h
    obtain ⟨hname, hnames⟩ := List.nodup_cons.mp hnames
    exact (completes_of_complete hnext).cons hname (ih hnames hrest)

theorem newRecord_eq_ok (hnamed : rules.model.AttributesNamed)
    (h : rules.newRecord given = .ok record) :
    (∀ entry ∈ given.entries, rules.checkEntry entry = .ok ()) ∧
      rules.checkEndpoints given = .ok () ∧
      rules.Completes rules.model.attributes.values given record := by
  obtain ⟨_, hentries, h⟩ := bind_eq_ok_iff.mp h
  obtain ⟨_, hends, h⟩ := bind_eq_ok_iff.mp h
  refine ⟨forM_eq_ok_iff.mp hentries, hends, completes_of_foldlM ?_ h⟩
  rw [hnamed.values_names]
  exact hnamed.ordered.nodup_keys

private theorem checkDeclared_of_checkEntry {entry : String × Json}
    (h : rules.checkEntry entry = .ok ()) (ha : rules.model.attribute? entry.1 = some a) :
    rules.checkDeclared a entry.1 entry.2 = .ok () := by
  have hvalue := mapError_eq_ok_iff.mp h
  rwa [checkValue, ha] at hvalue

/-- What is given passes; the rest depends on what is filled in. -/
theorem validRecord_iff (hnamed : rules.model.AttributesNamed)
    (h : rules.newRecord given = .ok record) :
    rules.model.ValidRecord rules.schema record ↔
      ∀ a ∈ rules.model.attributes.values, given.get? a.name = none →
        ∀ value ∈ rules.fill? a, a.Admits rules.schema value := by
  obtain ⟨hentries, _, hcompletes⟩ := newRecord_eq_ok hnamed h
  constructor
  · intro hvalid a ha hnone value hfill
    apply hvalid.admits a ha value
    rw [hcompletes.get? a ha, hnone, Option.none_or, hfill]
  · intro hfills
    refine ⟨hcompletes.present, ?_⟩
    intro a ha value hvalue
    rw [hcompletes.get? a ha] at hvalue
    cases hgiven : given.get? a.name with
    | none =>
      rw [hgiven, Option.none_or] at hvalue
      exact hfills a ha hgiven value hvalue
    | some own =>
      rw [hgiven, Option.some_or] at hvalue
      cases hvalue
      have hcheck := hentries (a.name, value) (Dict.mem_of_lookup hgiven)
      have hdeclared := checkDeclared_of_checkEntry hcheck (hnamed.mem_values_iff.mp ha)
      exact (admits_iff _).mpr ⟨hdeclared, fun hr => hcompletes.notNull a ha hr value hgiven⟩

end RecordRules

namespace LogicalQuery

open Outcome

/-- The new records of a call are valid if and only if every attribute that a given record leaves
out admits what it is filled with. -/
theorem normalize_valid_iff (datastores : List String) (d : Definition) (model : Model)
    (hd : d.attributes.Ordered) (h : d.resolve datastores = .ok model) (schema : Schema)
    (strict : Bool) (now : Instant) (method : Method) (hm : method.createsRecords = true)
    (request : Request) (query : LogicalQuery)
    (hq : normalize ⟨model, schema, strict, now⟩ method request = .ok (.ready query)) :
    (∀ record ∈ query.newRecords, model.ValidRecord schema record) ↔
      ∀ given ∈ request.given method, ∀ a ∈ model.attributes.values,
        given.get? a.name = none →
          RecordRules.FillsAdmitted ⟨model, schema, strict, now⟩ a := by
  have hresolves := Definition.resolvesTo_of_resolve h
  have hnamed := hresolves.attributesNamed hd
  have hrecords := normalize_ready_given hm hq
  refine (forall_mem_iff_of_forall₂ (fun given record hrecord => ?_) hrecords).symm
  refine Iff.trans ?_ (RecordRules.validRecord_iff hnamed hrecord).symm
  refine forall₂_congr fun a ha => ?_
  rw [← RecordRules.fillsAdmitted_iff (hresolves.untyped ha)]

private def tagged (nameDefault : Json) : Definition where
  identity := some "pet"
  attributes := ⟨[
    ("age", .obj ⟨[("defaultsTo", Json.nat 1), ("type", .str "number")]⟩),
    ("born", .obj ⟨[("autoCreatedAt", .bool true), ("type", .str "string")]⟩),
    ("name", .obj ⟨[("defaultsTo", nameDefault), ("required", .bool true),
      ("type", .str "string")]⟩)]⟩

private def untaggedPet : Request where
  newRecord := some (.obj ⟨[("age", Json.nat 3)]⟩)

/-- A pet without a name and a time of birth is given both. -/
theorem normalize_valid_iff_filled :
    ∃ model query, (tagged (.str "Rex")).resolve ["default"] = .ok model ∧
      normalize ⟨model, .empty, true, ⟨0, 0⟩⟩ .create untaggedPet = .ok (.ready query) ∧
      ∀ record ∈ query.newRecords, model.ValidRecord .empty record :=
  ⟨_, _, rfl, rfl, (normalize_valid_iff ["default"] (tagged (.str "Rex")) _ (by decide) rfl .empty
    true ⟨0, 0⟩ .create rfl untaggedPet _ rfl).mpr (by decide)⟩

/-- A required name is left null where null is its default. -/
theorem null_default_of_required :
    ¬ ∀ (datastores : List String) (d : Definition) (model : Model), d.attributes.Ordered →
      d.resolve datastores = .ok model → ∀ (schema : Schema) (strict : Bool) (now : Instant)
      (method : Method) (request : Request) (query : LogicalQuery),
      method.createsRecords = true →
      normalize ⟨model, schema, strict, now⟩ method request = .ok (.ready query) →
      ∀ record ∈ query.newRecords, model.ValidRecord schema record := by
  intro h
  have hvalid := h ["default"] (tagged .null) _ (by decide) rfl .empty true ⟨0, 0⟩ .create
    untaggedPet _ rfl rfl _ List.mem_cons_self
  have hname := hvalid.admits _ (List.mem_cons_of_mem _ (List.mem_cons_of_mem _
    List.mem_cons_self)) .null rfl
  exact absurd (hname.required rfl) (by decide)

end LogicalQuery

end GraphRecords
