import GraphRecords.Model.Resolution
import GraphRecords.Proofs.Model.Attribute

/-!
# Resolved models

The parts of a resolved model, each from its own part of the definition. The attributes of a
resolved model stand in order, each under its own name.
-/

namespace GraphRecords

open Outcome

namespace Definition

/-- How a model comes from a definition. -/
structure ResolvesTo (datastores : List String) (d : Definition) (model : Model) : Prop where
  names : d.resolveNames = .ok ⟨model.identity, model.tableName⟩
  datastore : d.resolveDatastore datastores model.identity = .ok model.datastore
  tenants : d.resolveTenants model.identity = .ok model.tenants
  role : ∃ isEdge, d.resolveClass model.identity = .ok isEdge ∧
    d.resolveRole model.tableName isEdge = .ok model.role
  attributes : d.resolveAttributes model.identity = .ok model.attributes
  indexes : d.resolveIndexes model.tableName model.role model.attributes = .ok model.indexes
  registered : checkDatastore datastores model.identity model.datastore = .ok ()
  primaryKey : model.primaryKey = (present d.primaryKey).getD defaultPrimaryKey
  bindings : model.bindings = d.bindings

theorem resolvesTo_of_resolve {datastores : List String} {d : Definition} {model : Model}
    (h : d.resolve datastores = .ok model) : d.ResolvesTo datastores model := by
  simp only [resolve, bind_eq_ok_iff] at h
  obtain ⟨names, hnames, datastore, hdatastore, isEdge, hclass, tenants, htenants, role, hrole,
    attributes, hattributes, indexes, hindexes, _, hregistered, h⟩ := h
  cases h
  exact {
    names := hnames
    datastore := hdatastore
    tenants := htenants
    role := ⟨isEdge, hclass, hrole⟩
    attributes := hattributes
    indexes := hindexes
    registered := hregistered
    primaryKey := rfl
    bindings := rfl }

theorem ResolvesTo.resolve_eq {datastores : List String} {d : Definition} {model : Model}
    (h : d.ResolvesTo datastores model) : d.resolve datastores = .ok model := by
  obtain ⟨isEdge, hclass, hrole⟩ := h.role
  simp only [resolve, bind_eq_ok_iff]
  refine ⟨⟨model.identity, model.tableName⟩, h.names, model.datastore, h.datastore, isEdge, hclass,
    model.tenants, h.tenants, model.role, hrole, model.attributes, h.attributes, model.indexes,
    h.indexes, (), h.registered, ?_⟩
  rw [← h.primaryKey, ← h.bindings]

private theorem resolveAttribute_eq_ok {identity : String} {entry : String × Json}
    {resolved : String × Attribute} (h : resolveAttribute identity entry = .ok resolved) :
    resolved.1 = entry.1 ∧ resolved.2.name = resolved.1 := by
  unfold resolveAttribute at h
  split at h
  · rename_i a ha
    cases h
    exact ⟨rfl, Attribute.parse_name ha⟩
  · cases h

private theorem resolveAttributes_entries {identity : String} {d : Definition}
    {attributes : Dict Attribute} (h : d.resolveAttributes identity = .ok attributes) :
    d.attributes.entries.mapM (resolveAttribute identity) = .ok attributes.entries := by
  obtain ⟨entries, hentries, he⟩ := bind_eq_ok_iff.mp h
  cases he
  exact hentries

private theorem resolveEntries_keys {identity : String} {entries : List (String × Json)}
    {resolved : List (String × Attribute)}
    (h : entries.mapM (resolveAttribute identity) = .ok resolved) :
    resolved.map Prod.fst = entries.map Prod.fst := by
  have hall := mapM_eq_ok_iff.mp h
  clear h
  induction hall with
  | nil => rfl
  | cons hx _ ih => rw [List.map_cons, List.map_cons, ih, (resolveAttribute_eq_ok hx).1]

theorem keys_of_resolveAttributes {identity : String} {d : Definition}
    {attributes : Dict Attribute} (h : d.resolveAttributes identity = .ok attributes) :
    attributes.keys = d.attributes.keys :=
  resolveEntries_keys (resolveAttributes_entries h)

end Definition

/-- Attributes stand in order, each under its own name. -/
structure Model.AttributesNamed (model : Model) : Prop where
  ordered : model.attributes.Ordered
  name_eq (entry : String × Attribute) (h : entry ∈ model.attributes.entries) :
    entry.2.name = entry.1

private theorem Definition.ResolvesTo.exists_parse {datastores : List String} {d : Definition}
    {model : Model} (h : d.ResolvesTo datastores model) {a : Attribute}
    (ha : a ∈ model.attributes.values) : ∃ raw, Attribute.parse a.name raw = .ok a := by
  obtain ⟨entry, he, rfl⟩ := List.mem_map.mp ha
  obtain ⟨raw, _, hraw⟩ := exists_mem_of_mapM_eq_ok (resolveAttributes_entries h.attributes) he
  unfold resolveAttribute at hraw
  split at hraw
  · rename_i a hparse
    cases hraw
    rw [Attribute.parse_name hparse]
    exact ⟨_, hparse⟩
  · cases hraw

theorem Definition.ResolvesTo.untyped {datastores : List String} {d : Definition} {model : Model}
    (h : d.ResolvesTo datastores model) {a : Attribute} (ha : a ∈ model.attributes.values)
    (hassociation : a.association.isSome = true) : a.valueType = none := by
  obtain ⟨raw, hraw⟩ := h.exists_parse ha
  exact Attribute.parse_untyped hraw hassociation

theorem Definition.ResolvesTo.name_eq {datastores : List String} {d : Definition} {model : Model}
    (h : d.ResolvesTo datastores model) (entry : String × Attribute)
    (he : entry ∈ model.attributes.entries) : entry.2.name = entry.1 := by
  have hentries := resolveAttributes_entries h.attributes
  obtain ⟨raw, _, hraw⟩ := exists_mem_of_mapM_eq_ok hentries he
  exact (resolveAttribute_eq_ok hraw).2

theorem Definition.ResolvesTo.attributesNamed {datastores : List String} {d : Definition}
    {model : Model} (h : d.ResolvesTo datastores model) (hd : d.attributes.Ordered) :
    model.AttributesNamed where
  ordered := by
    apply List.pairwise_map.mp
    have hkeys : model.attributes.entries.map Prod.fst = d.attributes.entries.map Prod.fst :=
      keys_of_resolveAttributes h.attributes
    rw [hkeys]
    exact List.pairwise_map.mpr hd
  name_eq := h.name_eq

/-- The errors that setting up can stop with. -/
def OrmError.stopsSetup : OrmError → Bool
  | usage _ none => true
  | configuration (.settings _) => true
  | configuration (.noDefaultDatastore _) => true
  | configuration (.unknownDefaultDatastore _) => true
  | configuration (.unknownDatastore _ _) => true
  | configuration (.unknownClassType _ _) => true
  | configuration (.unknownHookModel _) => true
  | _ => false

namespace Definition

section FailsOnly

variable {p : OrmError → Prop} {datastores : List String} {identity table datastore : String}
variable {d : Definition}

theorem resolveNames_failsOnly (h : p (.ofUsage .unnamedModel)) :
    FailsOnly p d.resolveNames := by
  unfold resolveNames
  split
  · exact failsOnly_error h
  · exact failsOnly_ok _
  · exact failsOnly_ok _

theorem resolveDatastore_failsOnly (h : p (.configuration (.noDefaultDatastore identity))) :
    FailsOnly p (d.resolveDatastore datastores identity) := by
  unfold resolveDatastore
  split
  · exact failsOnly_ok _
  · split
    · exact failsOnly_ok _
    · exact failsOnly_error h

theorem resolveClass_failsOnly
    (h : ∀ name, p (.configuration (.unknownClassType name identity))) :
    FailsOnly p (d.resolveClass identity) := by
  unfold resolveClass
  split
  · exact failsOnly_ok _
  · exact failsOnly_ok _
  · exact failsOnly_ok _
  · exact failsOnly_error (h _)

private theorem readString_failsOnly {fault : OrmError} (h : p fault) (value : Json) :
    FailsOnly p (readString fault value) := by
  cases value with
  | str text => exact failsOnly_ok text
  | null | bool | num | arr | obj => exact failsOnly_error h

private theorem resolveTenants_failsOnly (h : p (.ofUsage (.tenantNotStrings identity))) :
    FailsOnly p (d.resolveTenants identity) := by
  unfold resolveTenants
  dsimp only
  split
  · exact failsOnly_ok _
  · exact failsOnly_mapM fun value _ => readString_failsOnly h value
  · exact failsOnly_error h

private theorem resolveEnd_failsOnly (h : p (.ofUsage (.edgeShape table))) (key : String) :
    FailsOnly p (d.resolveEnd table key) := by
  unfold resolveEnd
  dsimp only
  split
  · exact failsOnly_error h
  · exact failsOnly_mapM fun value _ => readString_failsOnly h value
  · exact failsOnly_error h

theorem resolveRole_failsOnly (h : p (.ofUsage (.edgeShape table))) (isEdge : Bool) :
    FailsOnly p (d.resolveRole table isEdge) := by
  unfold resolveRole
  split
  · exact (resolveEnd_failsOnly h _).bind fun _ =>
      (resolveEnd_failsOnly h _).bind fun _ => failsOnly_ok _
  · exact failsOnly_ok _

theorem resolveAttributes_failsOnly
    (h : ∀ name fault, p (.ofUsage (.attributeDefinition identity name fault))) :
    FailsOnly p (d.resolveAttributes identity) := by
  refine FailsOnly.bind (failsOnly_mapM fun entry _ => ?_) fun _ => failsOnly_ok _
  unfold resolveAttribute
  split
  · exact failsOnly_ok _
  · exact failsOnly_error (h _ _)

theorem resolveIndexes_failsOnly (h : ∀ fault, p (.ofUsage (.index table fault)))
    (role : GraphRole) (attributes : Dict Attribute) :
    FailsOnly p (d.resolveIndexes table role attributes) := by
  unfold resolveIndexes
  dsimp only
  split
  · refine failsOnly_mapM fun raw _ => ?_
    unfold resolveIndex
    split
    · exact failsOnly_ok _
    · exact failsOnly_error (h _)
  · exact failsOnly_ok _

theorem checkDatastore_failsOnly (hdefault : p (.configuration (.unknownDefaultDatastore identity)))
    (hnamed : p (.configuration (.unknownDatastore datastore identity))) :
    FailsOnly p (checkDatastore datastores identity datastore) := by
  unfold checkDatastore
  split
  · exact failsOnly_ok _
  · split
    · exact failsOnly_error hdefault
    · exact failsOnly_error hnamed

end FailsOnly

theorem resolve_failsOnly (datastores : List String) (d : Definition) :
    FailsOnly (·.stopsSetup) (d.resolve datastores) := by
  refine (resolveNames_failsOnly (by rfl)).bind fun names => ?_
  refine (resolveDatastore_failsOnly (by rfl)).bind fun _ => ?_
  refine (resolveClass_failsOnly fun _ => by rfl).bind fun _ => ?_
  refine (resolveTenants_failsOnly (by rfl)).bind fun _ => ?_
  refine (resolveRole_failsOnly (by rfl) _).bind fun _ => ?_
  refine (resolveAttributes_failsOnly fun _ _ => by rfl).bind fun _ => ?_
  refine (resolveIndexes_failsOnly (fun _ => by rfl) _ _).bind fun _ => ?_
  exact (checkDatastore_failsOnly (by rfl) (by rfl)).bind fun _ => failsOnly_ok _

theorem checkDatastore_eq_ok_iff {datastores : List String} {identity datastore : String} :
    checkDatastore datastores identity datastore = .ok () ↔ datastore ∈ datastores := by
  unfold checkDatastore
  split
  · rename_i hmem
    exact ⟨fun _ => List.contains_iff_mem.mp hmem, fun _ => rfl⟩
  · rename_i hmem
    refine ⟨fun h => ?_, fun h => absurd (List.contains_iff_mem.mpr h) hmem⟩
    split at h
    · cases h
    · cases h

theorem ResolvesTo.datastore_mem {datastores : List String} {d : Definition} {model : Model}
    (h : d.ResolvesTo datastores model) : model.datastore ∈ datastores :=
  checkDatastore_eq_ok_iff.mp h.registered

end Definition

end GraphRecords
