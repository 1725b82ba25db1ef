import GraphRecords.Orm.Setup
import GraphRecords.Proofs.Model.Schema

/-!
# Started models

What is known of the models that calls can be made on once a setup has started: each was resolved
from a definition, stands under its identity in the schema and has a registered adapter. Starting
is taken apart into its steps, and binding into where each part of a bound model is from.
-/

namespace GraphRecords

open Outcome

variable {σ : Type} {setup : Setup σ}

/-- A model that calls can be made on. -/
structure BoundModel.Started (setup : Setup σ) (m : BoundModel σ) : Prop where
  found : m.schema.get? m.model.identity = some m.model
  resolved : ∃ d ∈ setup.definitions, d.resolve setup.datastores.keys = .ok m.model
  registered : ∃ entry ∈ setup.datastores.entries, m.adapter = entry.2.adapter

theorem BoundModel.Started.adapter_eq {setup : Setup σ} {m : BoundModel σ} (h : m.Started setup)
    {adapter : Adapter σ} (hall : ∀ entry ∈ setup.datastores.entries, entry.2.adapter = adapter) :
    m.adapter = adapter := by
  obtain ⟨entry, hentry, hadapter⟩ := h.registered
  exact hadapter.trans (hall entry hentry)

namespace Setup

/-- The datastores and the models that are linked. -/
def index (setup : Setup σ) (schema : Schema) : CollectionIndex :=
  .link setup.datastores.keys schema.models.values

theorem resolveSchema_eq_ok {schema : Schema} (h : setup.resolveSchema = .ok schema) :
    Schema.ofDefinitions setup.datastores.keys setup.definitions = .ok schema ∧
      schema.checkAssociations = .ok () := by
  obtain ⟨resolved, hresolved, h⟩ := bind_eq_ok_iff.mp h
  obtain ⟨_, hchecked, h⟩ := bind_eq_ok_iff.mp h
  cases h
  exact ⟨hresolved, hchecked⟩

/-- How a started setup comes from what was collected. -/
structure StartsAs (setup : Setup σ) (orm : Orm σ) : Prop where
  definitions : Schema.ofDefinitions setup.datastores.keys setup.definitions = .ok orm.schema
  associations : orm.schema.checkAssociations = .ok ()
  hooks : setup.checkHooks orm.schema = .ok ()
  connections : orm.connections = connectAll setup.datastores (setup.index orm.schema)
  models : orm.schema.models.entries.mapM (setup.bindModel orm.schema orm.connections) =
    .ok orm.models.entries

theorem startsAs_of_start {orm : Orm σ} (h : setup.start = .ok orm) : setup.StartsAs orm := by
  obtain ⟨_, _, h⟩ := bind_eq_ok_iff.mp h
  obtain ⟨schema, hschema, h⟩ := bind_eq_ok_iff.mp h
  obtain ⟨_, hhooks, h⟩ := bind_eq_ok_iff.mp h
  obtain ⟨models, hmodels, h⟩ := bind_eq_ok_iff.mp h
  cases h
  obtain ⟨hdefinitions, hassociations⟩ := resolveSchema_eq_ok hschema
  exact {
    definitions := hdefinitions
    associations := hassociations
    hooks := hhooks
    connections := rfl
    models := hmodels }

theorem get?_connectAll (datastores : Dict (Registration σ)) (index : CollectionIndex)
    (name : String) :
    (connectAll datastores index).get? name = (datastores.get? name).map (connect index name) :=
  Dict.get?_mapValues (connect index) datastores name

/-- What a model is bound with, from what is registered under the name of its datastore. -/
structure BindsAs (setup : Setup σ) (shared : Schema) (resolved : Model) (m : BoundModel σ) :
    Prop where
  model : m.model = resolved
  schema : m.schema = shared
  registered : setup.datastores.get? resolved.datastore = some ⟨m.adapter, m.datastore.settings⟩
  connection : connect (setup.index shared) resolved.datastore ⟨m.adapter, m.datastore.settings⟩ =
    ⟨m.datastore, m.adapter⟩
  callbacks : m.callbacks = (setup.hooks.get? resolved.identity).getD {}

private theorem bindsAs_of_bindModel {schema : Schema} {entry : String × Model}
    {bound : String × BoundModel σ}
    (h : setup.bindModel schema (connectAll setup.datastores (setup.index schema)) entry =
      .ok bound) :
    bound.1 = entry.2.identity ∧ setup.BindsAs schema entry.2 bound.2 := by
  unfold bindModel at h
  dsimp only at h
  rw [get?_connectAll] at h
  cases hget : setup.datastores.get? entry.2.datastore with
  | none =>
    rw [hget] at h
    cases h
  | some registration =>
    rw [hget] at h
    cases h
    exact ⟨rfl, {
      model := rfl
      schema := rfl
      registered := hget
      connection := rfl
      callbacks := rfl }⟩

theorem StartsAs.resolvedFrom {orm : Orm σ} (h : setup.StartsAs orm) :
    orm.schema.ResolvedFrom setup.datastores.keys setup.definitions :=
  Schema.resolvedFrom_ofDefinitions h.definitions

theorem StartsAs.forall₂_bindsAs {orm : Orm σ} (h : setup.StartsAs orm) :
    List.Forall₂
      (fun entry bound => bound.1 = entry.2.identity ∧ setup.BindsAs orm.schema entry.2 bound.2)
      orm.schema.models.entries orm.models.entries := by
  have hmodels := mapM_eq_ok_iff.mp h.models
  rw [h.connections] at hmodels
  exact hmodels.imp fun _ _ hbind => bindsAs_of_bindModel hbind

theorem started_of_start {orm : Orm σ} (hstart : setup.start = .ok orm) {identity : String}
    {m : BoundModel σ} (hm : orm.model identity = .ok m) : m.Started setup := by
  have hstarts := startsAs_of_start hstart
  have hschema := hstarts.resolvedFrom
  unfold Orm.model at hm
  split at hm
  · rename_i found hfound
    cases hm
    obtain ⟨entry, hentry, _, hbinds⟩ :=
      exists_mem_of_forall₂ hstarts.forall₂_bindsAs (Dict.mem_of_lookup hfound)
    refine ⟨?_, ?_, _, Dict.mem_of_lookup hbinds.registered, rfl⟩
    · rw [hbinds.schema, hbinds.model]
      apply (Dict.get?_eq_some_iff hschema.ordered).mpr
      rw [← hschema.identity entry hentry]
      exact hentry
    · rw [hbinds.model]
      exact hschema.resolved entry hentry
  · cases hm

end Setup

end GraphRecords
