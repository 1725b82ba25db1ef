import GraphRecords.Proofs.Model.Linking
import GraphRecords.Proofs.Orm.Started
import Mathlib.Data.List.Perm.Basic

/-!
# Setups

A setup is what a sequence of calls collects. If it starts, its live models are those of the
definitions and refer to nothing but each other; each is linked into the datastore that its
definition resolves to, and has the hooks that were registered for it last, and no others.
-/

namespace GraphRecords

open Outcome

variable {σ : Type}

/-- A call on a setup that has not started. -/
inductive SetupCall (σ : Type) where
  | settings (values : Settings)
  | datastore (name : String) (registration : Registration σ)
  | model (definition : Definition)
  | hook (identity : String) (kind : HookKind) (action : Hook)

namespace SetupCall

def apply (setup : Setup σ) : SetupCall σ → Setup σ
  | settings values => { setup with settings := values }
  | datastore name registration => setup.addDatastore name registration
  | model definition => setup.addModel definition
  | hook identity kind action => setup.addHook identity kind action

def definition? : SetupCall σ → Option Definition
  | model definition => some definition
  | _ => none

def registrationAs? (name : String) : SetupCall σ → Option (Registration σ)
  | datastore own registration => if own = name then some registration else none
  | _ => none

def hookOf? (identity : String) (kind : HookKind) : SetupCall σ → Option Hook
  | hook own given action => if lowercase own = identity ∧ given = kind then some action else none
  | _ => none

/-- The definitions that are given, in order. -/
def definitions (calls : List (SetupCall σ)) : List Definition := calls.filterMap definition?

/-- What is registered last under the name of a datastore. -/
def lastRegistration (calls : List (SetupCall σ)) (name : String) : Option (Registration σ) :=
  (calls.filterMap (registrationAs? name)).getLast?

/-- The hook of a kind that is registered last for a model. -/
def lastHook (calls : List (SetupCall σ)) (identity : String) (kind : HookKind) : Option Hook :=
  (calls.filterMap (hookOf? identity kind)).getLast?

end SetupCall

namespace Setup

open SetupCall

/-- What a sequence of calls collects. -/
def ofCalls (calls : List (SetupCall σ)) : Setup σ := calls.foldl apply {}

/-- The hook of a kind that is registered for a model. -/
def hook? (setup : Setup σ) (identity : String) (kind : HookKind) : Option Hook :=
  ((setup.hooks.get? identity).getD {}).get? kind

section Apply

variable (setup : Setup σ) (call : SetupCall σ)

private theorem definitions_apply :
    (apply setup call).definitions = setup.definitions ++ call.definition?.toList := by
  cases call with
  | model definition => rfl
  | settings | datastore | hook => exact (List.append_nil _).symm

private theorem get?_datastores_apply (name : String) :
    (apply setup call).datastores.get? name =
      (call.registrationAs? name).or (setup.datastores.get? name) := by
  cases call with
  | datastore own registration =>
    rw [apply, addDatastore, Dict.get?_insert, registrationAs?]
    split
    · rfl
    · rfl
  | settings | model | hook => rfl

private theorem hook?_apply (identity : String) (kind : HookKind) :
    (apply setup call).hook? identity kind =
      (call.hookOf? identity kind).or (setup.hook? identity kind) := by
  cases call with
  | hook own given action =>
    simp only [apply, addHook, hook?, hookOf?]
    rw [Dict.get?_insert]
    by_cases hown : lowercase own = identity
    · subst hown
      rw [if_pos rfl, Option.getD_some, Callbacks.get?_register]
      by_cases hgiven : given = kind
      · simp [hgiven]
      · simp [hgiven]
    · simp [hown]
  | settings | datastore | model => rfl

end Apply

section OfCalls

variable (calls : List (SetupCall σ))

private theorem definitions_ofCalls :
    (ofCalls calls).definitions = SetupCall.definitions calls := by
  have hfold (setup : Setup σ) : (calls.foldl apply setup).definitions =
      setup.definitions ++ SetupCall.definitions calls := by
    induction calls generalizing setup with
    | nil => exact (List.append_nil _).symm
    | cons call calls ih =>
      rw [List.foldl_cons, ih, definitions_apply, List.append_assoc]
      cases call <;> rfl
  exact hfold {}

private theorem get?_datastores_ofCalls (name : String) :
    (ofCalls calls).datastores.get? name = lastRegistration calls name :=
  (Dict.foldl_eq_last (fun setup : Setup σ => setup.datastores.get? name)
    (fun setup call => get?_datastores_apply setup call name) calls {}).trans Option.or_none

private theorem hook?_ofCalls (identity : String) (kind : HookKind) :
    (ofCalls calls).hook? identity kind = lastHook calls identity kind := by
  refine (Dict.foldl_eq_last (fun setup : Setup σ => setup.hook? identity kind)
    (fun setup call => hook?_apply setup call identity kind) calls {}).trans ?_
  cases kind <;> exact Option.or_none

private theorem mem_keys_hooks_ofCalls {identity : String} {kind : HookKind} {action : Hook}
    (h : .hook identity kind action ∈ calls) :
    lowercase identity ∈ (ofCalls calls).hooks.keys := by
  have hmem : action ∈ calls.filterMap (hookOf? (lowercase identity) kind) :=
    List.mem_filterMap.mpr ⟨_, h, if_pos ⟨rfl, rfl⟩⟩
  have hlast := hook?_ofCalls calls (lowercase identity) kind
  by_contra hkey
  rw [hook?, Dict.get?_eq_none_iff.mpr hkey, lastHook,
    List.getLast?_eq_some_getLast (List.ne_nil_of_mem hmem)] at hlast
  cases kind <;> cases hlast

end OfCalls

variable {setup : Setup σ}

private theorem contains_of_checkHooks {schema : Schema} (h : setup.checkHooks schema = .ok ())
    {identity : String} (hidentity : identity ∈ setup.hooks.keys) :
    schema.contains identity = true := by
  unfold checkHooks at h
  split at h
  · cases h
  · rename_i hnone
    simpa using List.find?_eq_none.mp hnone identity hidentity

namespace StartsAs

variable {orm : Orm σ}

private theorem keys_models (h : setup.StartsAs orm) :
    orm.models.keys = orm.schema.models.keys := by
  have hkeys := (List.forall₂_and_left _ _).mpr ⟨h.resolvedFrom.identity, h.forall₂_bindsAs⟩
  have hsame : List.Forall₂ (fun entry bound => bound.1 = entry.1)
      orm.schema.models.entries orm.models.entries :=
    hkeys.imp fun _ _ hentry => hentry.2.1.trans hentry.1.symm
  have hnames : List.Forall₂ Eq orm.models.keys orm.schema.models.keys :=
    List.forall₂_map_left_iff.mpr (List.forall₂_map_right_iff.mpr hsame.flip)
  rwa [List.forall₂_eq_eq_eq] at hnames

private theorem exists_perm_models (h : setup.StartsAs orm) :
    ∃ live, live.Perm orm.models.entries ∧
      List.Forall₂
        (fun d entry => d.resolve setup.datastores.keys = .ok entry.2.model ∧
          entry.1 = entry.2.model.identity)
        setup.definitions live := by
  obtain ⟨models, hmodels, hperm⟩ := Schema.entries_perm_of_addAll h.definitions
  have hentries : (models.map (fun model => (model.identity, model))).Perm
      orm.schema.models.entries := by
    simpa [Schema.empty, Dict.empty] using hperm.symm
  obtain ⟨live, hlive, hsame⟩ := List.perm_comp_forall₂ hentries h.forall₂_bindsAs
  refine ⟨live, hsame, (forall₂_comp hmodels (List.forall₂_map_left_iff.mp hlive)).imp ?_⟩
  rintro d entry ⟨model, hresolve, hkey, hbinds⟩
  rw [hbinds.model]
  exact ⟨hresolve, hkey⟩

end StartsAs

private theorem checkHooks_failsOnly (setup : Setup σ) (schema : Schema) :
    FailsOnly (·.stopsSetup) (setup.checkHooks schema) := by
  unfold checkHooks
  split
  · exact failsOnly_error rfl
  · exact failsOnly_ok _

private theorem bindModel_failsOnly {schema : Schema} {index : CollectionIndex}
    {entry : String × Model} (h : entry.2.datastore ∈ setup.datastores.keys) :
    FailsOnly (·.stopsSetup)
      (setup.bindModel schema (connectAll setup.datastores index) entry) := by
  unfold bindModel
  dsimp only
  rw [get?_connectAll]
  cases hget : setup.datastores.get? entry.2.datastore with
  | none => exact absurd h (Dict.get?_eq_none_iff.mp hget)
  | some registration => exact failsOnly_ok _

private theorem start_failsOnly (setup : Setup σ) : FailsOnly (·.stopsSetup) setup.start := by
  refine FailsOnly.bind ?_ fun _ => ?_
  · exact failsOnly_mapError (f := fun error => OrmError.configuration (.settings error))
      (fun _ => rfl) _
  refine FailsOnly.bind_of_eq ?_ fun schema hschema => ?_
  · exact (Schema.addAll_failsOnly _ _ _).bind fun schema =>
      schema.checkAssociations_failsOnly.bind fun _ => failsOnly_ok _
  · refine (checkHooks_failsOnly setup schema).bind fun _ => ?_
    refine FailsOnly.bind (failsOnly_mapM fun entry hentry => bindModel_failsOnly ?_)
      fun _ => failsOnly_ok _
    have hresolved := Schema.resolvedFrom_ofDefinitions (resolveSchema_eq_ok hschema).1
    obtain ⟨d, _, hd⟩ := hresolved.resolved entry hentry
    exact (Definition.resolvesTo_of_resolve hd).datastore_mem

end Setup

/-- How a live model is tied to what was collected, and to the rest of its ORM. -/
structure BoundModel.BoundIn (calls : List (SetupCall σ)) (orm : Orm σ) (m : BoundModel σ) :
    Prop where
  /-- The datastore is the one that the definition resolves to, as it was registered last. -/
  datastore : m.datastore.name = m.model.datastore
  registered : SetupCall.lastRegistration calls m.model.datastore =
    some ⟨m.adapter, m.datastore.settings⟩
  /-- It is the datastore that the ORM holds under this name. -/
  frozen : orm.connections.get? m.model.datastore = some ⟨m.datastore, m.adapter⟩
  collected : m.model.identity ∈ m.datastore.collections
  target (a : Attribute) (ha : a ∈ m.model.attributes.values) (association : Association)
    (h : a.association = some association) : association.target ∈ orm.models.keys
  through (a : Attribute) (ha : a ∈ m.model.attributes.values) (association : Association)
    (h : a.association = some association) (identity : String)
    (hthrough : association.through = some identity) : identity ∈ orm.models.keys
  /-- The callbacks are the last ones for the model, and no others. -/
  callbacks (kind : HookKind) :
    m.callbacks.get? kind = SetupCall.lastHook calls m.model.identity kind

/-- An ORM that is closed and fully linked. -/
structure Orm.Linked (calls : List (SetupCall σ)) (orm : Orm σ) : Prop where
  /-- Each definition has a live model, under its own identity, and there are no others. -/
  models : ∃ live : List (String × BoundModel σ), live.Perm orm.models.entries ∧
    (live.map Prod.fst).Nodup ∧
      List.Forall₂
        (fun d entry => d.resolve (Setup.ofCalls calls).datastores.keys = .ok entry.2.model ∧
          entry.1 = entry.2.model.identity)
        (SetupCall.definitions calls) live
  bound (entry : String × BoundModel σ) (h : entry ∈ orm.models.entries) :
    entry.2.BoundIn calls orm
  /-- No hook was registered for anything but a live model. -/
  hooked (identity : String) (kind : HookKind) (action : Hook)
    (h : .hook identity kind action ∈ calls) : lowercase identity ∈ orm.models.keys

namespace Setup

open SetupCall

variable {calls : List (SetupCall σ)} {orm : Orm σ}

private theorem StartsAs.boundIn (h : (ofCalls calls).StartsAs orm) {entry : String × BoundModel σ}
    (hentry : entry ∈ orm.models.entries) : entry.2.BoundIn calls orm := by
  obtain ⟨⟨_, model⟩, hsource, -, hbinds⟩ := exists_mem_of_forall₂ h.forall₂_bindsAs hentry
  obtain ⟨d, _, hd⟩ := h.resolvedFrom.resolved _ hsource
  have hregistered := (Definition.resolvesTo_of_resolve hd).datastore_mem
  have hvalue : model ∈ orm.schema.models.values := List.mem_map_of_mem hsource
  have hreferences (a : Attribute) (ha : a ∈ model.attributes.values)
      (association : Association) (hassociation : a.association = some association)
      (identity : String) (hidentity : identity ∈ Schema.references association) :
      identity ∈ orm.models.keys := by
    rw [h.keys_models]
    exact Dict.contains_iff.mp (Schema.contains_of_checkAssociations h.associations hvalue ha
      hassociation identity hidentity)
  obtain ⟨_, m⟩ := entry
  obtain ⟨rfl, -, hlast, hconnection, hcallbacks⟩ := hbinds
  refine {
    datastore := (congrArg (·.datastore.name) hconnection).symm
    registered := (get?_datastores_ofCalls calls _).symm.trans hlast
    frozen := ?_
    collected := ?_
    target := fun a ha association hassociation =>
      hreferences a ha association hassociation _ List.mem_cons_self
    through := fun a ha association hassociation identity hthrough =>
      hreferences a ha association hassociation identity
        (List.mem_cons_of_mem _ (Option.mem_toList.mpr hthrough))
    callbacks := ?_ }
  · rw [h.connections, get?_connectAll, hlast, Option.map_some, hconnection]
  · have hcollections := congrArg (·.datastore.collections) hconnection
    rw [← hcollections]
    exact CollectionIndex.mem_collections_link_iff.mpr
      ⟨m.model, hvalue, rfl, CollectionIndex.datastore_mem_homes hregistered⟩
  · intro kind
    rw [hcallbacks]
    exact hook?_ofCalls calls m.model.identity kind

/-- Whatever calls a setup is made by: if it starts, all is linked, and no datastore is lost. -/
theorem start_ofCalls_linked (calls : List (SetupCall σ)) :
    (∀ orm, (ofCalls calls).start = .ok orm → orm.Linked calls) ∧
      ∀ datastore identity, (ofCalls calls).start ≠
        .error (.configuration (.datastoreLost datastore identity)) := by
  constructor
  · intro orm hstart
    have hstarts := startsAs_of_start hstart
    obtain ⟨live, hperm, hlive⟩ := hstarts.exists_perm_models
    have hnodup : orm.models.keys.Nodup := by
      rw [hstarts.keys_models]
      exact hstarts.resolvedFrom.ordered.nodup_keys
    refine {
      models := ⟨live, hperm, (hperm.map Prod.fst).nodup_iff.mpr hnodup, ?_⟩
      bound := fun entry hentry => hstarts.boundIn hentry
      hooked := ?_ }
    · rw [← definitions_ofCalls]
      exact hlive
    · intro identity kind action hcall
      rw [hstarts.keys_models]
      exact Dict.contains_iff.mp
        (contains_of_checkHooks hstarts.hooks (mem_keys_hooks_ofCalls calls hcall))
  · intro datastore identity hlost
    cases start_failsOnly _ _ hlost

private def refusing : Hook := fun _ => ⟨false, .error (.failed "no pets")⟩

private def accepting : Hook := fun record => ⟨false, .ok record⟩

private def petShop : List (SetupCall Store) := [
  .hook "Pet" .beforeCreate refusing,
  .model {
    identity := some "Pet"
    attributes := ⟨[("toys", .obj ⟨[("collection", .str "Toy"), ("through", .str "owns")]⟩)]⟩ },
  .datastore "graph" { adapter := .memory .inserting [] none },
  .model { tableName := some "toy", datastore := some "graph" },
  .datastore "default" { adapter := .memory .inserting [] none },
  .datastore "graph" { adapter := .memory .inserting [] (some 1) },
  .model { identity := some "owns" },
  .hook "PET" .beforeCreate accepting]

/-- Pets have the second of their hooks, and toys the second adapter of their datastore. -/
theorem start_ofCalls_linked_pet_shop :
    ∃ orm pet toy, (ofCalls petShop).start = .ok orm ∧ orm.Linked petShop ∧
      orm.model "pet" = .ok pet ∧ pet.callbacks.get? .beforeCreate = some accepting ∧
      orm.model "toy" = .ok toy ∧ toy.adapter = .memory .inserting [] (some 1) ∧
      toy.datastore.collections = ["owns", "pet", "toy"] :=
  ⟨_, _, _, rfl, (start_ofCalls_linked petShop).1 _ rfl, rfl, rfl, rfl, rfl, rfl⟩

end Setup

end GraphRecords
