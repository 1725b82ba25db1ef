import GraphRecords.Proofs.Model.Index
import GraphRecords.Proofs.Model.Resolution

/-!
# Accepted definitions

What a definition has to be like to be resolved, and what its model is like then. Later stages
rely on the latter and do not check it again.
-/

namespace GraphRecords

open Outcome

namespace Definition

variable {datastores : List String} {d : Definition} {model : Model}
variable {identity table key : String}

private theorem mapM_readString_eq_ok_iff {fault : OrmError} {values : List Json}
    {texts : List String} :
    values.mapM (readString fault) = .ok texts ↔ values = texts.map .str := by
  apply mapM_eq_ok_iff_map
  intro value text
  cases value <;> simp [readString]

private theorem exists_resolveNames_iff : (∃ names, d.resolveNames = .ok names) ↔
    (present d.identity).isSome = true ∨ (present d.tableName).isSome = true := by
  unfold resolveNames
  cases present d.identity <;> cases present d.tableName <;> simp

/-- The datastore that a definition names, or else the default one. -/
def namedDatastore (d : Definition) : String := (present d.datastore).getD defaultDatastore

private theorem resolveDatastore_eq_ok {datastore : String}
    (h : d.resolveDatastore datastores identity = .ok datastore) :
    datastore = d.namedDatastore := by
  unfold resolveDatastore at h
  unfold namedDatastore
  cases hpresent : present d.datastore with
  | some named =>
    rw [hpresent] at h
    cases h
    rfl
  | none =>
    rw [hpresent] at h
    dsimp only at h
    split at h
    · cases h
      rfl
    · cases h

private theorem resolveDatastore_of_mem (h : d.namedDatastore ∈ datastores) :
    d.resolveDatastore datastores identity = .ok d.namedDatastore := by
  unfold namedDatastore at h ⊢
  unfold resolveDatastore
  cases hpresent : present d.datastore with
  | some named => rfl
  | none =>
    rw [hpresent] at h
    exact if_pos (List.contains_iff_mem.mpr h)

/-- The definition is one of an edge. -/
def DefinesEdge (d : Definition) : Prop := d.classType = some "Edge"

instance (d : Definition) : Decidable d.DefinesEdge :=
  inferInstanceAs (Decidable (d.classType = some "Edge"))

private theorem resolveClass_eq_ok_iff {isEdge : Bool} : d.resolveClass identity = .ok isEdge ↔
    d.classType ∈ [none, some "Vertex", some "Edge"] ∧ isEdge = decide d.DefinesEdge := by
  unfold resolveClass DefinesEdge
  split
  · rename_i hclass
    simp [hclass, eq_comm]
  · rename_i hclass
    simp [hclass, eq_comm]
  · rename_i hclass
    simp [hclass, eq_comm]
  · rename_i name hvertex hedge hclass
    refine ⟨nofun, fun h => absurd h.1 ?_⟩
    rw [hclass]
    simpa using ⟨fun hv => hvertex (hv ▸ rfl), fun he => hedge (he ▸ rfl)⟩

private theorem resolveTenants_eq_ok_iff {tenants : List String} :
    d.resolveTenants identity = .ok tenants ↔ d.tenantType = none ∧ tenants = [defaultTenant] ∨
      d.tenantType = some (Json.strings tenants) := by
  unfold resolveTenants
  cases d.tenantType with
  | none => simp [eq_comm]
  | some value =>
    cases value with
    | arr tags => simp [mapM_readString_eq_ok_iff, Json.strings]
    | null | bool | num | str | obj => simp [Json.strings]

/-- What the edge definition has for one of the ends. -/
def declaredEnd (d : Definition) (key : String) : Option Json :=
  d.edgeDefinition.bind (·.field? key)

private theorem resolveEnd_eq_ok_iff {names : List String} : d.resolveEnd table key = .ok names ↔
    names ≠ [] ∧ d.declaredEnd key = some (Json.strings names) := by
  constructor
  · intro h
    unfold resolveEnd at h
    split at h
    · cases h
    · rename_i values hnonempty hend
      obtain rfl := mapM_readString_eq_ok_iff.mp h
      refine ⟨?_, hend⟩
      rintro rfl
      exact hnonempty rfl
    · cases h
  · rintro ⟨hnonempty, hend⟩
    unfold declaredEnd at hend
    rw [resolveEnd, hend]
    cases names with
    | nil => exact absurd rfl hnonempty
    | cons name names => exact mapM_readString_eq_ok_iff.mpr rfl

/-- The part that a definition gives its model, with the ends that it declares for an edge. -/
inductive DeclaresRole (d : Definition) : GraphRole → Prop
  | vertex (hclass : ¬ d.DefinesEdge) : DeclaresRole d .vertex
  | edge {sources targets : List String} (hclass : d.DefinesEdge)
      (hsources : sources ≠ []) (hfrom : d.declaredEnd "from" = some (Json.strings sources))
      (htargets : targets ≠ []) (hto : d.declaredEnd "to" = some (Json.strings targets)) :
      DeclaresRole d (.edge sources targets)

private theorem resolveRole_eq_ok_iff {role : GraphRole} :
    d.resolveRole table (decide d.DefinesEdge) = .ok role ↔ d.DeclaresRole role := by
  unfold resolveRole
  by_cases hclass : d.DefinesEdge
  · rw [if_pos (decide_eq_true hclass)]
    simp only [bind_eq_ok_iff, resolveEnd_eq_ok_iff]
    constructor
    · rintro ⟨sources, ⟨hsources, hfrom⟩, targets, ⟨htargets, hto⟩, h⟩
      cases h
      exact .edge hclass hsources hfrom htargets hto
    · intro h
      cases h with
      | vertex hvertex => exact absurd hclass hvertex
      | @edge sources targets _ hsources hfrom htargets hto =>
        exact ⟨sources, ⟨hsources, hfrom⟩, targets, ⟨htargets, hto⟩, rfl⟩
  -- The ends of a vertex are not looked at, whatever they are.
  · rw [if_neg (by simpa using hclass)]
    constructor
    · intro h
      cases h
      exact .vertex hclass
    · intro h
      cases h with
      | vertex => rfl
      | edge hedge => exact absurd hedge hclass

private theorem DeclaresRole.isEdge_iff {role : GraphRole} (h : d.DeclaresRole role) :
    role.isEdge = true ↔ d.DefinesEdge := by
  cases h with
  | vertex hclass => exact ⟨nofun, fun hedge => absurd hedge hclass⟩
  | edge hclass => exact ⟨fun _ => hclass, fun _ => rfl⟩

private theorem DeclaresRole.declaredEnd {role : GraphRole} (h : d.DeclaresRole role)
    (hedge : d.DefinesEdge) (hkey : key ∈ ["from", "to"]) :
    ∃ names, names ≠ [] ∧ d.declaredEnd key = some (Json.strings names) := by
  simp only [List.mem_cons, List.not_mem_nil, or_false] at hkey
  cases h with
  | vertex hvertex => exact absurd hedge hvertex
  | edge _ hsources hfrom htargets hto =>
    rcases hkey with rfl | rfl
    · exact ⟨_, hsources, hfrom⟩
    · exact ⟨_, htargets, hto⟩

/-- The attributes that an index may begin a path with. -/
def indexable (d : Definition) : List String :=
  (if d.DefinesEdge then edgeAttributes else []) ++ d.attributes.keys

private theorem exists_resolveAttributes_iff (identity : String) :
    (∃ attributes, d.resolveAttributes identity = .ok attributes) ↔
      ∀ entry ∈ d.attributes.entries, ∃ fields, entry.2 = .obj fields ∧
        Attribute.Definable fields := by
  have hentry (entry : String × Json) :
      (∃ resolved, resolveAttribute identity entry = .ok resolved) ↔
        ∃ fields, entry.2 = .obj fields ∧ Attribute.Definable fields := by
    rw [← Attribute.exists_parse_iff entry.1]
    unfold resolveAttribute
    cases Attribute.parse entry.1 entry.2 <;> simp
  simp only [← hentry, ← exists_mapM_eq_ok_iff, resolveAttributes, bind_eq_ok_iff]
  constructor
  · rintro ⟨attributes, entries, hentries, _⟩
    exact ⟨entries, hentries⟩
  · rintro ⟨entries, hentries⟩
    exact ⟨_, entries, hentries, rfl⟩

private theorem resolveIndex_eq_ok_iff {known : List String} {raw : Json} {index : Index} :
    resolveIndex table known raw = .ok index ↔ Index.parse known raw = .ok index := by
  unfold resolveIndex
  cases Index.parse known raw <;> simp

private theorem exists_resolveIndexes_iff (table : String) {role : GraphRole}
    {attributes : Dict Attribute} (hrole : d.DeclaresRole role)
    (hkeys : attributes.keys = d.attributes.keys) :
    (∃ indexes, d.resolveIndexes table role attributes = .ok indexes) ↔
      ∀ entries, d.indexes = some (.arr entries) → ∀ raw ∈ entries,
        ∃ descriptor, raw = .obj descriptor ∧ Index.Definable d.indexable descriptor := by
  have hknown : (if role.isEdge then edgeAttributes else []) ++ attributes.keys = d.indexable := by
    simp only [hkeys, hrole.isEdge_iff, indexable]
  unfold resolveIndexes
  rw [hknown]
  cases d.indexes with
  | none => simp
  | some value =>
    cases value with
    | arr entries =>
      simp [exists_mapM_eq_ok_iff, resolveIndex_eq_ok_iff, Index.exists_parse_iff]
    | null | bool | num | str | obj => simp

private theorem leading_of_resolveIndexes {role : GraphRole} {attributes : Dict Attribute}
    {indexes : List Index} (h : d.resolveIndexes table role attributes = .ok indexes)
    {index : Index} (hindex : index ∈ indexes) {field : String} (hfield : field ∈ index.fields) :
    Index.leadingSegment field ∈
      (if role.isEdge then edgeAttributes else []) ++ attributes.keys := by
  unfold resolveIndexes at h
  dsimp only at h
  split at h
  · obtain ⟨raw, _, hraw⟩ := exists_mem_of_mapM_eq_ok h hindex
    obtain ⟨descriptor, _, hreads⟩ :=
      Index.parse_eq_ok_iff.mp (resolveIndex_eq_ok_iff.mp hraw)
    exact hreads.leading field hfield
  · cases h
    cases hindex

/-- A definition that is in shape in all its parts. The parts that only concern edges are not looked
at for vertices, nor are indexes that are not an array. -/
structure Accepted (datastores : List String) (d : Definition) : Prop where
  named : (present d.identity).isSome = true ∨ (present d.tableName).isSome = true
  datastore : d.namedDatastore ∈ datastores
  classType : d.classType ∈ [none, some "Vertex", some "Edge"]
  tenants (value : Json) (h : d.tenantType = some value) : ∃ tags, value = Json.strings tags
  ends (hedge : d.DefinesEdge) (key : String) (h : key ∈ ["from", "to"]) :
    ∃ names, names ≠ [] ∧ d.declaredEnd key = some (Json.strings names)
  attributes (entry : String × Json) (h : entry ∈ d.attributes.entries) :
    ∃ fields, entry.2 = .obj fields ∧ Attribute.Definable fields
  indexes (entries : List Json) (hindexes : d.indexes = some (.arr entries)) (raw : Json)
    (h : raw ∈ entries) :
    ∃ descriptor, raw = .obj descriptor ∧ Index.Definable d.indexable descriptor

theorem ResolvesTo.classType (h : d.ResolvesTo datastores model) :
    d.classType ∈ [none, some "Vertex", some "Edge"] := by
  obtain ⟨isEdge, hclass, _⟩ := h.role
  exact (resolveClass_eq_ok_iff.mp hclass).1

private theorem ResolvesTo.declaresRole (h : d.ResolvesTo datastores model) :
    d.DeclaresRole model.role := by
  obtain ⟨isEdge, hclass, hrole⟩ := h.role
  obtain ⟨_, rfl⟩ := resolveClass_eq_ok_iff.mp hclass
  exact resolveRole_eq_ok_iff.mp hrole

theorem ResolvesTo.accepted (h : d.ResolvesTo datastores model) : d.Accepted datastores where
  named := exists_resolveNames_iff.mp ⟨_, h.names⟩
  datastore := by
    rw [← resolveDatastore_eq_ok h.datastore]
    exact h.datastore_mem
  classType := h.classType
  tenants value hvalue := by
    rcases resolveTenants_eq_ok_iff.mp h.tenants with ⟨hnone, _⟩ | hdeclared
    · cases hnone.symm.trans hvalue
    · exact ⟨model.tenants, Option.some.inj (hvalue.symm.trans hdeclared)⟩
  ends hedge key hkey := h.declaresRole.declaredEnd hedge hkey
  attributes := (exists_resolveAttributes_iff _).mp ⟨_, h.attributes⟩
  indexes := (exists_resolveIndexes_iff _ h.declaresRole
    (keys_of_resolveAttributes h.attributes)).mp ⟨_, h.indexes⟩

private theorem Accepted.exists_role (h : d.Accepted datastores) : ∃ role, d.DeclaresRole role := by
  by_cases hedge : d.DefinesEdge
  · obtain ⟨sources, hsources, hfrom⟩ := h.ends hedge "from" (by decide)
    obtain ⟨targets, htargets, hto⟩ := h.ends hedge "to" (by decide)
    exact ⟨_, .edge hedge hsources hfrom htargets hto⟩
  · exact ⟨_, .vertex hedge⟩

private theorem Accepted.exists_tenants (h : d.Accepted datastores) (identity : String) :
    ∃ tenants, d.resolveTenants identity = .ok tenants := by
  simp only [resolveTenants_eq_ok_iff]
  cases htenants : d.tenantType with
  | none => exact ⟨_, .inl ⟨rfl, rfl⟩⟩
  | some value =>
    obtain ⟨tags, rfl⟩ := h.tenants value htenants
    exact ⟨tags, .inr rfl⟩

theorem Accepted.exists_resolvesTo (h : d.Accepted datastores) :
    ∃ model, d.ResolvesTo datastores model := by
  obtain ⟨⟨identity, table⟩, hnames⟩ := exists_resolveNames_iff.mpr h.named
  obtain ⟨tenants, htenants⟩ := h.exists_tenants identity
  obtain ⟨role, hrole⟩ := h.exists_role
  obtain ⟨attributes, hattributes⟩ := (exists_resolveAttributes_iff identity).mpr h.attributes
  obtain ⟨indexes, hindexes⟩ := (exists_resolveIndexes_iff table hrole
    (keys_of_resolveAttributes hattributes)).mpr h.indexes
  exact ⟨⟨identity, table, d.namedDatastore, role, tenants, indexes, attributes, _, _⟩, {
    names := hnames
    datastore := resolveDatastore_of_mem h.datastore
    tenants := htenants
    role := ⟨_, resolveClass_eq_ok_iff.mpr ⟨h.classType, rfl⟩, resolveRole_eq_ok_iff.mpr hrole⟩
    attributes := hattributes
    indexes := hindexes
    registered := checkDatastore_eq_ok_iff.mpr h.datastore
    primaryKey := rfl
    bindings := rfl }⟩

end Definition

/-- What later stages rely on of a model, by the definition that it comes from. -/
structure Model.WellFormed (datastores : List String) (d : Definition) (model : Model) : Prop where
  registered : model.datastore ∈ datastores
  isEdge_iff : model.role.isEdge = true ↔ d.DefinesEdge
  ends (sources targets : List String) (h : model.role = .edge sources targets) :
    sources ≠ [] ∧ targets ≠ [] ∧ d.declaredEnd "from" = some (Json.strings sources) ∧
      d.declaredEnd "to" = some (Json.strings targets)
  attributes_keys : model.attributes.keys = d.attributes.keys
  name_eq (entry : String × Attribute) (h : entry ∈ model.attributes.entries) :
    entry.2.name = entry.1
  untyped (a : Attribute) (h : a ∈ model.attributes.values) (hassociation : a.association.isSome) :
    a.valueType = none
  leading (index : Index) (hindex : index ∈ model.indexes) (field : String)
    (h : field ∈ index.fields) : ∃ name, Index.PathInto name field ∧
      (name ∈ model.attributes.keys ∨ model.role.isEdge = true ∧ name ∈ edgeAttributes)
  tenants : d.tenantType = none ∧ model.tenants = [Definition.defaultTenant] ∨
    d.tenantType = some (Json.strings model.tenants)

namespace Definition

variable {datastores : List String} {d : Definition} {model : Model}

theorem DeclaresRole.ends {sources targets : List String}
    (h : d.DeclaresRole (.edge sources targets)) : sources ≠ [] ∧ targets ≠ [] ∧
      d.declaredEnd "from" = some (Json.strings sources) ∧
      d.declaredEnd "to" = some (Json.strings targets) := by
  cases h with
  | edge _ hsources hfrom htargets hto => exact ⟨hsources, htargets, hfrom, hto⟩

private theorem ResolvesTo.wellFormed (h : d.ResolvesTo datastores model) :
    model.WellFormed datastores d where
  registered := h.datastore_mem
  isEdge_iff := h.declaresRole.isEdge_iff
  ends sources targets hrole := DeclaresRole.ends (hrole ▸ h.declaresRole)
  attributes_keys := keys_of_resolveAttributes h.attributes
  name_eq := h.name_eq
  untyped _ ha := h.untyped ha
  leading index hindex field hfield := by
    obtain ⟨name, hname, hpath⟩ :=
      Index.leadingSegment_mem_iff.mp (leading_of_resolveIndexes h.indexes hindex hfield)
    refine ⟨name, hpath, ?_⟩
    rcases List.mem_append.mp hname with hedge | hmem
    · split at hedge
      · rename_i hrole
        exact .inr ⟨hrole, hedge⟩
      · cases hedge
    · exact .inl hmem
  tenants := resolveTenants_eq_ok_iff.mp h.tenants

/-- A definition is resolved exactly when it is in shape, and its model is then well formed. -/
theorem resolve_accepts_iff (datastores : List String) (d : Definition) :
    ((∃ model, d.resolve datastores = .ok model) ↔ d.Accepted datastores) ∧
      ∀ model, d.resolve datastores = .ok model → model.WellFormed datastores d := by
  refine ⟨⟨?_, ?_⟩, fun model h => (resolvesTo_of_resolve h).wellFormed⟩
  · rintro ⟨model, h⟩
    exact (resolvesTo_of_resolve h).accepted
  · intro h
    obtain ⟨model, hmodel⟩ := h.exists_resolvesTo
    exact ⟨model, hmodel.resolve_eq⟩

end Definition

end GraphRecords
