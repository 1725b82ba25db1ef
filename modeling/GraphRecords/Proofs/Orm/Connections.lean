import GraphRecords.Proofs.Model.Linking
import GraphRecords.Proofs.Orm.Started

/-!
# Connected datastores

The index of a set of datastores and the models resolved against them is one relation, which both
of its sides list in full. A connected datastore has the models that the index lists with it.
-/

namespace GraphRecords.Setup

variable {σ : Type}

private theorem keys_connectAll (datastores : Dict (Registration σ)) (index : CollectionIndex) :
    (connectAll datastores index).keys = datastores.keys := by
  rw [Dict.keys, connectAll, List.map_map]
  rfl

/-- Models are listed with datastores and datastores with models alike: a model of the default
datastore with all that are registered, any other with its own. Every registered datastore is
listed, also without models, and connected with exactly the models listed with it. -/
theorem link_connects_listed (datastores : Dict (Registration σ)) (models : List Model)
    (hmodels : ∀ model ∈ models, ∃ d : Definition, d.resolve datastores.keys = .ok model) :
    let index := CollectionIndex.link datastores.keys models
    (∀ datastore identity,
      (identity ∈ (index.collections? datastore).getD [] ↔
        datastore ∈ (index.datastores? identity).getD []) ∧
      (identity ∈ (index.collections? datastore).getD [] ↔
        ∃ model ∈ models, model.identity = identity ∧
          (model.datastore = defaultDatastore ∧ datastore ∈ datastores.keys ∨
            model.datastore = datastore))) ∧
    (connectAll datastores index).keys = datastores.keys ∧
    ∀ datastore registration, datastores.get? datastore = some registration →
      ∃ identities, index.collections? datastore = some identities ∧
        (connectAll datastores index).get? datastore =
          some ⟨⟨datastore, registration.settings, identities⟩, registration.adapter⟩ := by
  intro index
  have hregistered (model : Model) (hmodel : model ∈ models) :
      model.datastore ∈ datastores.keys := by
    obtain ⟨d, hd⟩ := hmodels model hmodel
    exact (Definition.resolvesTo_of_resolve hd).datastore_mem
  refine ⟨fun datastore identity => ⟨?_, ?_⟩, keys_connectAll datastores index, ?_⟩
  · rw [CollectionIndex.mem_collections_iff, CollectionIndex.mem_datastores_iff]
    exact CollectionIndex.mirrored_link datastores.keys models datastore identity
  · rw [CollectionIndex.mem_collections_link_iff]
    refine exists_congr fun model => and_congr_right fun hmodel => and_congr_right fun _ => ?_
    exact CollectionIndex.mem_homes_iff (hregistered model hmodel)
  · intro datastore registration hget
    have hkey : datastore ∈ datastores.keys :=
      Dict.contains_iff.mp (Option.isSome_of_eq_some hget)
    obtain ⟨identities, hlisted⟩ := CollectionIndex.exists_collections_link hkey models
    refine ⟨identities, hlisted, ?_⟩
    rw [get?_connectAll, hget, Option.map_some, connect, hlisted, Option.getD_some]

private def threeDatastores : Dict (Registration Store) := ⟨[
  ("archive", { adapter := .memory .inserting [] none }),
  ("default", { adapter := .memory .inserting [] none }),
  ("graph", { adapter := .memory .inserting [] (some 1) })]⟩

private def petOf (datastore : Option String) : Definition where
  identity := some "Pet"
  datastore := datastore

/-- Two models share an identity, and one of them is listed with every datastore. -/
theorem link_connects_listed_pets :
    ∃ models connection, [petOf (some "graph"), petOf none].mapM
        (Definition.resolve threeDatastores.keys) = .ok models ∧
      let index := CollectionIndex.link threeDatastores.keys models
      "archive" ∈ (index.datastores? "pet").getD [] ∧
        (connectAll threeDatastores index).get? "graph" = some connection ∧
        connection.datastore.collections = ["pet"] := by
  obtain ⟨hlisted, -, hconnected⟩ := link_connects_listed threeDatastores [_, _] (by
    simp only [List.forall_mem_cons]
    exact ⟨⟨petOf (some "graph"), rfl⟩, ⟨petOf none, rfl⟩, nofun⟩)
  obtain ⟨identities, hidentities, hconnection⟩ := hconnected "graph" _ rfl
  refine ⟨_, _, rfl, ?_, hconnection, ?_⟩
  · apply (hlisted "archive" "pet").1.mp
    apply (hlisted "archive" "pet").2.mpr
    exact ⟨_, List.mem_cons_of_mem _ List.mem_cons_self, rfl, .inl ⟨rfl, by decide⟩⟩
  · cases hidentities
    rfl

end GraphRecords.Setup
