import GraphRecords.Model.Schema
import GraphRecords.Proofs.Model.Resolution

/-!
# Schemas of definitions

A schema that is made from definitions has one model for each, in order of identity, and once its
associations are checked they refer to models of the schema only.
-/

namespace GraphRecords

open Outcome

/-- Models stand in order under their identities, and each was resolved from a definition. -/
structure Schema.ResolvedFrom (datastores : List String) (definitions : List Definition)
    (schema : Schema) : Prop where
  ordered : schema.models.Ordered
  identity (entry : String × Model) (h : entry ∈ schema.models.entries) :
    entry.1 = entry.2.identity
  resolved (entry : String × Model) (h : entry ∈ schema.models.entries) :
    ∃ d ∈ definitions, d.resolve datastores = .ok entry.2

namespace Schema

variable {datastores : List String} {definitions : List Definition} {schema : Schema}

private theorem resolvedFrom_empty : empty.ResolvedFrom datastores definitions :=
  ⟨List.Pairwise.nil, fun _ h => (nomatch h), fun _ h => (nomatch h)⟩

private theorem insert_eq_ok {model : Model} {next : Schema} (h : schema.insert model = .ok next) :
    model.identity ∉ schema.models.keys ∧ next = ⟨schema.models.insert model.identity model⟩ := by
  unfold Schema.insert at h
  split at h
  · cases h
  · rename_i hfree
    cases h
    exact ⟨mt Dict.contains_iff.mpr hfree, rfl⟩

theorem ResolvedFrom.insert (h : schema.ResolvedFrom datastores definitions) {d : Definition}
    (hd : d ∈ definitions) {model : Model} (hmodel : d.resolve datastores = .ok model)
    {next : Schema} (hnext : schema.insert model = .ok next) :
    next.ResolvedFrom datastores definitions := by
  obtain ⟨_, rfl⟩ := insert_eq_ok hnext
  refine ⟨h.ordered.insert _ _, ?_, ?_⟩
  · intro entry hm
    rcases Dict.mem_put hm with rfl | hm
    · rfl
    · exact h.identity entry hm
  · intro entry hm
    rcases Dict.mem_put hm with rfl | hm
    · exact ⟨d, hd, hmodel⟩
    · exact h.resolved entry hm

theorem ResolvedFrom.addAll {rest : List Definition}
    (h : schema.ResolvedFrom datastores definitions)
    (hrest : ∀ d ∈ rest, d ∈ definitions) {result : Schema}
    (hadd : addAll datastores schema rest = .ok result) :
    result.ResolvedFrom datastores definitions := by
  induction rest generalizing schema with
  | nil =>
    cases hadd
    exact h
  | cons d rest ih =>
    obtain ⟨model, hmodel, hadd⟩ := bind_eq_ok_iff.mp hadd
    obtain ⟨next, hnext, hadd⟩ := bind_eq_ok_iff.mp hadd
    exact ih (h.insert (hrest d List.mem_cons_self) hmodel hnext)
      (fun d hm => hrest d (List.mem_cons_of_mem _ hm)) hadd

theorem resolvedFrom_ofDefinitions (h : ofDefinitions datastores definitions = .ok schema) :
    schema.ResolvedFrom datastores definitions :=
  resolvedFrom_empty.addAll (fun _ hm => hm) h

/-- The schema grows by one model for each definition, under the identity of the model. -/
theorem entries_perm_of_addAll {rest : List Definition} {result : Schema}
    (hadd : addAll datastores schema rest = .ok result) :
    ∃ models, List.Forall₂ (fun d model => d.resolve datastores = .ok model) rest models ∧
      result.models.entries.Perm
        (models.map (fun model => (model.identity, model)) ++ schema.models.entries) := by
  induction rest generalizing schema with
  | nil =>
    cases hadd
    exact ⟨[], .nil, .refl _⟩
  | cons d rest ih =>
    obtain ⟨model, hmodel, hadd⟩ := bind_eq_ok_iff.mp hadd
    obtain ⟨next, hnext, hadd⟩ := bind_eq_ok_iff.mp hadd
    obtain ⟨models, hmodels, hperm⟩ := ih hadd
    obtain ⟨hfree, rfl⟩ := insert_eq_ok hnext
    have hput : (schema.models.insert model.identity model).entries.Perm
        ((model.identity, model) :: schema.models.entries) := Dict.put_perm hfree
    exact ⟨model :: models, .cons hmodel hmodels,
      hperm.trans ((hput.append_left _).trans List.perm_middle)⟩

private theorem checkAttribute_eq_ok {model : Model} {a : Attribute}
    (h : schema.checkAttribute model a = .ok ()) {association : Association}
    (ha : a.association = some association) :
    ∀ target ∈ references association, schema.contains target = true := by
  unfold checkAttribute at h
  split at h
  · cases h
  · rename_i hnone
    intro target htarget
    rw [danglingReference?, ha] at hnone
    simpa using List.find?_eq_none.mp hnone target htarget

theorem contains_of_checkAssociations (h : schema.checkAssociations = .ok ()) {model : Model}
    (hm : model ∈ schema.models.values) {a : Attribute} (ha : a ∈ model.attributes.values)
    {association : Association} (hassociation : a.association = some association) :
    ∀ target ∈ references association, schema.contains target = true :=
  checkAttribute_eq_ok (forM_eq_ok_iff.mp (forM_eq_ok_iff.mp h model hm) a ha) hassociation

theorem addAll_failsOnly (datastores : List String) (schema : Schema)
    (definitions : List Definition) :
    FailsOnly (·.stopsSetup) (addAll datastores schema definitions) := by
  induction definitions generalizing schema with
  | nil => exact failsOnly_ok schema
  | cons d rest ih =>
    refine (d.resolve_failsOnly datastores).bind fun model => FailsOnly.bind ?_ ih
    unfold Schema.insert
    split
    · exact failsOnly_error rfl
    · exact failsOnly_ok _

theorem checkAssociations_failsOnly (schema : Schema) :
    FailsOnly (·.stopsSetup) schema.checkAssociations := by
  refine failsOnly_forM fun model _ => failsOnly_forM fun a _ => ?_
  unfold checkAttribute
  split
  · exact failsOnly_error rfl
  · exact failsOnly_ok _

end Schema

end GraphRecords
