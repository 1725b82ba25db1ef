import GraphRecords.Proofs.Model.Resolution

/-!
# Definitions that are written and read back

What is left out of a dictionary and what is null in it is read as the same. A definition in which
a part of any shape is null comes back without it, and its tenants are then those of a definition
that declares none.
-/

namespace GraphRecords.Definition

open Outcome

variable {fields : Record} {key : String}

private theorem readText_of_get? {text : Option String} (h : fields.get? key = text.map .str) :
    readText fields key = some text := by
  unfold readText
  rw [h]
  cases text with
  | none => rfl
  | some text => rfl

private theorem readAttributes_of_get? {attributes : Record}
    (h : fields.get? "attributes" = some (.obj attributes)) :
    readAttributes fields = some attributes := by
  unfold readAttributes
  rw [h]

private theorem readBindings_of_get? {bindings : Option Record}
    (h : fields.get? "let" = bindings.map .obj) : readBindings fields = some bindings := by
  unfold readBindings
  rw [h]
  cases bindings with
  | none => rfl
  | some bindings => rfl

private theorem ofJson?_obj {d : Definition}
    (hidentity : fields.get? "identity" = d.identity.map .str)
    (htable : fields.get? "tableName" = d.tableName.map .str)
    (hdatastore : fields.get? "datastore" = d.datastore.map .str)
    (hclass : fields.get? "classType" = d.classType.map .str)
    (hprimary : fields.get? "primaryKey" = d.primaryKey.map .str)
    (hattributes : fields.get? "attributes" = some (.obj d.attributes))
    (hbindings : fields.get? "let" = d.bindings.map .obj)
    (htenants : readAny fields "tenantType" = d.tenantType)
    (hedge : readAny fields "edgeDefinition" = d.edgeDefinition)
    (hindexes : readAny fields "indexes" = d.indexes) : ofJson? (.obj fields) = some d := by
  simp only [ofJson?, Json.toObject?, Option.bind_eq_bind, Option.bind_some,
    readText_of_get? hidentity, readText_of_get? htable, readText_of_get? hdatastore,
    readText_of_get? hclass, readText_of_get? hprimary, readAttributes_of_get? hattributes,
    readBindings_of_get? hbindings, htenants, hedge, hindexes]
  rfl

/-- The definition with nothing where a part of any shape is null. -/
def withoutNulls (d : Definition) : Definition :=
  { d with
    tenantType := d.tenantType.filter (!·.isNull)
    edgeDefinition := d.edgeDefinition.filter (!·.isNull)
    indexes := d.indexes.filter (!·.isNull) }

private theorem ofJson?_toJson (d : Definition) : ofJson? d.toJson = some d.withoutNulls := by
  unfold toJson
  apply ofJson?_obj
  all_goals simp [readAny, withoutNulls, Dict.get?_insert?, Dict.get?_insert]

private theorem filter_isNull_eq_self_iff {part : Option Json} :
    part.filter (!·.isNull) = part ↔ part ≠ some .null := by
  cases part with
  | none => simp
  | some value => cases value <;> simp [Json.isNull]

theorem withoutNulls_eq_self_iff (d : Definition) :
    d.withoutNulls = d ↔ d.tenantType ≠ some .null ∧ d.edgeDefinition ≠ some .null ∧
      d.indexes ≠ some .null := by
  rw [← filter_isNull_eq_self_iff, ← filter_isNull_eq_self_iff, ← filter_isNull_eq_self_iff]
  constructor
  · intro h
    exact ⟨congrArg tenantType h, congrArg edgeDefinition h, congrArg indexes h⟩
  · rintro ⟨htenants, hedge, hindexes⟩
    rw [withoutNulls, htenants, hedge, hindexes]

private theorem resolveRole_withoutNulls (d : Definition) (table : String) (isEdge : Bool) :
    d.withoutNulls.resolveRole table isEdge = d.resolveRole table isEdge := by
  have hend (key : String) : d.withoutNulls.resolveEnd table key = d.resolveEnd table key := by
    have hfield : d.withoutNulls.edgeDefinition.bind (·.field? key) =
        d.edgeDefinition.bind (·.field? key) := by
      unfold withoutNulls
      cases d.edgeDefinition with
      | none => rfl
      | some value => cases value <;> rfl
    rw [resolveEnd, resolveEnd, hfield]
  rw [resolveRole, resolveRole, hend, hend]

private theorem resolveIndexes_withoutNulls (d : Definition) (table : String) (role : GraphRole)
    (attributes : Dict Attribute) :
    d.withoutNulls.resolveIndexes table role attributes =
      d.resolveIndexes table role attributes := by
  unfold resolveIndexes withoutNulls
  cases d.indexes with
  | none => rfl
  | some value => cases value <;> rfl

private theorem resolveTenants_withoutNulls {d : Definition} (h : d.tenantType ≠ some .null)
    (identity : String) : d.withoutNulls.resolveTenants identity = d.resolveTenants identity := by
  have hpart : d.withoutNulls.tenantType = d.tenantType := filter_isNull_eq_self_iff.mpr h
  rw [resolveTenants, resolveTenants, hpart]

private theorem resolve_withoutNulls {d : Definition} (h : d.tenantType ≠ some .null)
    (datastores : List String) : d.withoutNulls.resolve datastores = d.resolve datastores := by
  simp only [resolve, resolveTenants_withoutNulls h, resolveRole_withoutNulls,
    resolveIndexes_withoutNulls]
  rfl

private theorem resolve_failsOnly_of_no_tenants {d : Definition} (h : d.tenantType = none)
    (datastores : List String) :
    FailsOnly (·.usageCode? ≠ some .tenantType) (d.resolve datastores) := by
  have htenants (identity : String) : d.resolveTenants identity = .ok [defaultTenant] := by
    rw [resolveTenants, h]
  refine (resolveNames_failsOnly nofun).bind fun names => ?_
  refine (resolveDatastore_failsOnly nofun).bind fun _ => ?_
  refine (resolveClass_failsOnly fun _ => nofun).bind fun _ => ?_
  rw [htenants]
  refine (resolveRole_failsOnly nofun _).bind fun _ => ?_
  refine (resolveAttributes_failsOnly fun _ _ => nofun).bind fun _ => ?_
  refine (resolveIndexes_failsOnly (fun _ => nofun) _ _).bind fun _ => ?_
  exact (checkDatastore_failsOnly nofun nofun).bind fun _ => failsOnly_ok _

private theorem resolve_null_tenants {d : Definition} (h : d.tenantType = some .null)
    (datastores : List String) :
    (∃ identity, d.resolve datastores = .error (.ofUsage (.tenantNotStrings identity))) ∨
      ∃ error, d.resolve datastores = .error error ∧
        d.withoutNulls.resolve datastores = .error error := by
  have htenants (identity : String) :
      d.resolveTenants identity = .error (.ofUsage (.tenantNotStrings identity)) := by
    rw [resolveTenants, h]
  have hnames : d.withoutNulls.resolveNames = d.resolveNames := rfl
  unfold resolve
  rw [hnames]
  cases d.resolveNames with
  | error error => exact .inr ⟨error, rfl, rfl⟩
  | ok names =>
    have hdatastore : d.withoutNulls.resolveDatastore datastores names.identity =
        d.resolveDatastore datastores names.identity := rfl
    have hclass : d.withoutNulls.resolveClass names.identity = d.resolveClass names.identity := rfl
    simp only [bind, Except.bind, hdatastore, hclass]
    cases d.resolveDatastore datastores names.identity with
    | error error => exact .inr ⟨error, rfl, rfl⟩
    | ok datastore =>
      cases d.resolveClass names.identity with
      | error error => exact .inr ⟨error, rfl, rfl⟩
      -- Tenants are looked at next, so nothing after them matters.
      | ok isEdge => exact .inl ⟨names.identity, by simp only [htenants]⟩

/-- The outcomes differ exactly where null tenants are what the definition is rejected for. -/
theorem resolve_withoutNulls_iff (datastores : List String) (d : Definition) :
    d.withoutNulls.resolve datastores = d.resolve datastores ↔
      ¬ (d.tenantType = some .null ∧ ∃ error, d.resolve datastores = .error error ∧
        error.usageCode? = some .tenantType) := by
  by_cases htenants : d.tenantType = some .null
  · have hnone : d.withoutNulls.tenantType = none := by
      rw [withoutNulls, htenants]
      rfl
    have hfails := resolve_failsOnly_of_no_tenants hnone datastores
    constructor
    · rintro hsame ⟨_, error, herror, hcode⟩
      exact hfails error (hsame.trans herror) hcode
    · intro hother
      rcases resolve_null_tenants htenants datastores with
        ⟨identity, herror⟩ | ⟨error, herror, hback⟩
      · exact absurd ⟨htenants, _, herror, rfl⟩ hother
      · rw [herror, hback]
  · exact ⟨fun _ h => htenants h.1, fun _ => resolve_withoutNulls htenants datastores⟩

/-- What a definition comes back as when it is written and read, and when that is the same. It
always comes back, without the parts that are null. The model or error that it stands for is the
same unless the definition was rejected for null tenants. -/
theorem ofJson?_toJson_iff (d : Definition) :
    ofJson? d.toJson = some d.withoutNulls ∧
      (d.withoutNulls = d ↔ d.tenantType ≠ some .null ∧ d.edgeDefinition ≠ some .null ∧
        d.indexes ≠ some .null) ∧
      ∀ datastores, d.withoutNulls.resolve datastores = d.resolve datastores ↔
        ¬ (d.tenantType = some .null ∧ ∃ error, d.resolve datastores = .error error ∧
          error.usageCode? = some .tenantType) :=
  ⟨ofJson?_toJson d, withoutNulls_eq_self_iff d,
    fun datastores => resolve_withoutNulls_iff datastores d⟩

/-- Pets with null tenants are rejected, and accepted once they are written and read back. -/
theorem null_tenants_accepted_when_read :
    let pet : Definition := { identity := some "pet", tenantType := some .null }
    pet.resolve [defaultDatastore] = .error (.ofUsage (.tenantNotStrings "pet")) ∧
      ∃ back, ofJson? pet.toJson = some back ∧ back ≠ pet ∧
        ∃ model, back.resolve [defaultDatastore] = .ok model ∧ model.tenants = [defaultTenant] := by
  refine ⟨rfl, _, ofJson?_toJson _, ?_, _, rfl, rfl⟩
  intro h
  cases congrArg tenantType h

end GraphRecords.Definition
