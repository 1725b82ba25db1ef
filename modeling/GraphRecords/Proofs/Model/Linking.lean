import GraphRecords.Datastore
import GraphRecords.Proofs.Dict.Entries

/-!
# Linking

A model is listed with exactly its home datastores, whatever else is linked before or after it.
The two sides of the index stay one relation, in which every registered datastore has a place.
-/

namespace GraphRecords.CollectionIndex

/-- The name stands in the set of the key. -/
def Relates (relation : Dict NameSet) (key name : String) : Prop :=
  name ∈ ((relation.get? key).getD .empty).keys

private theorem relates_addName_iff {relation : Dict NameSet} {key name other target : String} :
    Relates (addName relation key name) other target ↔
      other = key ∧ target = name ∨ Relates relation other target := by
  unfold Relates addName
  rw [Dict.get?_insert]
  split
  · rename_i hkey
    subst hkey
    simp
  · rename_i hkey
    simp [Ne.symm hkey]

private theorem relates_foldl_add_iff {names : List String} {identity : String}
    {index : CollectionIndex} {datastore target : String} :
    Relates (names.foldl (fun index name => index.add name identity) index).byDatastore
        datastore target ↔
      datastore ∈ names ∧ target = identity ∨ Relates index.byDatastore datastore target := by
  induction names generalizing index with
  | nil => simp
  | cons name names ih =>
    rw [List.foldl_cons, ih, add, relates_addName_iff, List.mem_cons, or_and_right, or_assoc,
      or_left_comm]

variable {datastores : List String} {datastore identity : String}

private theorem not_relates_ofDatastores :
    ¬ Relates (ofDatastores datastores).byDatastore datastore identity := by
  unfold Relates ofDatastores
  cases hget :
      (Dict.ofList (datastores.map fun name => (name, (.empty : NameSet)))).get? datastore with
  | none => exact List.not_mem_nil
  | some names =>
    obtain ⟨_, _, hentry⟩ := List.mem_map.mp (Dict.mem_of_get?_ofList hget)
    cases hentry
    exact List.not_mem_nil

private theorem relates_link_iff {models : List Model} :
    Relates (link datastores models).byDatastore datastore identity ↔
      ∃ model ∈ models, model.identity = identity ∧ datastore ∈ homes datastores model := by
  have hfold (index : CollectionIndex) :
      Relates (models.foldl (addModel datastores) index).byDatastore datastore identity ↔
        (∃ model ∈ models, model.identity = identity ∧ datastore ∈ homes datastores model) ∨
          Relates index.byDatastore datastore identity := by
    induction models generalizing index with
    | nil => simp
    | cons model models ih =>
      rw [List.foldl_cons, ih, addModel, relates_foldl_add_iff, List.exists_mem_cons_iff,
        and_comm (a := datastore ∈ _), eq_comm (a := identity), or_assoc, or_left_comm]
  exact (hfold _).trans (or_iff_left not_relates_ofDatastores)

theorem mem_collections_iff {index : CollectionIndex} :
    identity ∈ (index.collections? datastore).getD [] ↔
      Relates index.byDatastore datastore identity := by
  rw [Relates, collections?]
  cases index.byDatastore.get? datastore <;> rfl

theorem mem_datastores_iff {index : CollectionIndex} :
    datastore ∈ (index.datastores? identity).getD [] ↔
      Relates index.byModel identity datastore := by
  rw [Relates, datastores?]
  cases index.byModel.get? identity <;> rfl

theorem mem_collections_link_iff {models : List Model} :
    identity ∈ ((link datastores models).collections? datastore).getD [] ↔
      ∃ model ∈ models, model.identity = identity ∧ datastore ∈ homes datastores model :=
  mem_collections_iff.trans relates_link_iff

/-- The homes of a model of the default datastore are all that are registered. Any other model has
its own, which is registered as well. -/
theorem mem_homes_iff {model : Model} (h : model.datastore ∈ datastores) :
    datastore ∈ homes datastores model ↔
      model.datastore = defaultDatastore ∧ datastore ∈ datastores ∨
        model.datastore = datastore := by
  unfold homes Model.usesDefaultDatastore
  split
  · rename_i hdefault
    have hdefault : model.datastore = defaultDatastore := eq_of_beq hdefault
    constructor
    · exact fun hmem => .inl ⟨hdefault, hmem⟩
    · rintro (⟨_, hmem⟩ | rfl)
      · exact hmem
      · exact h
  · rename_i hother
    have hother : model.datastore ≠ defaultDatastore := fun he => hother (beq_iff_eq.mpr he)
    rw [List.mem_singleton, or_iff_right fun hdefault => hother hdefault.1, eq_comm]

theorem datastore_mem_homes {model : Model} (h : model.datastore ∈ datastores) :
    model.datastore ∈ homes datastores model := (mem_homes_iff h).mpr (.inr rfl)

/-- Linking only adds pairs: what holds without models and is kept by each pair holds in the end. -/
theorem link_induction {p : CollectionIndex → Prop} (hstart : p (ofDatastores datastores))
    (hadd : ∀ index name identity, p index → p (index.add name identity)) (models : List Model) :
    p (link datastores models) := by
  have hmodel (index : CollectionIndex) (hindex : p index) (model : Model) :
      p (addModel datastores index model) := by
    unfold addModel
    induction homes datastores model generalizing index with
    | nil => exact hindex
    | cons name names ih => exact ih _ (hadd index name model.identity hindex)
  have hfold (index : CollectionIndex) (hindex : p index) :
      p (models.foldl (addModel datastores) index) := by
    induction models generalizing index with
    | nil => exact hindex
    | cons model models ih => exact ih _ (hmodel index hindex model)
  exact hfold _ hstart

/-- Each side of the index holds what the other one does. -/
def Mirrored (index : CollectionIndex) : Prop :=
  ∀ datastore identity,
    Relates index.byDatastore datastore identity ↔ Relates index.byModel identity datastore

theorem Mirrored.add {index : CollectionIndex} (h : Mirrored index) (name identity : String) :
    Mirrored (index.add name identity) := by
  intro datastore other
  simp only [CollectionIndex.add, relates_addName_iff]
  rw [h datastore other, and_comm]

theorem mirrored_link (datastores : List String) (models : List Model) :
    Mirrored (link datastores models) := by
  refine link_induction ?_ (fun _ name identity h => h.add name identity) models
  exact fun _ _ => iff_of_false not_relates_ofDatastores List.not_mem_nil

private theorem contains_ofDatastores (h : datastore ∈ datastores) :
    (ofDatastores datastores).byDatastore.contains datastore = true := by
  rw [Dict.contains, ofDatastores, Option.isSome_iff_ne_none, Ne, Dict.get?_ofList_eq_none_iff,
    List.map_map]
  exact fun hnot => hnot (List.mem_map.mpr ⟨datastore, h, rfl⟩)

private theorem contains_add {index : CollectionIndex}
    (h : index.byDatastore.contains datastore = true) (name identity : String) :
    (index.add name identity).byDatastore.contains datastore = true := by
  rw [add, addName, Dict.contains_iff, Dict.mem_keys_insert_iff]
  exact .inr (Dict.contains_iff.mp h)

theorem exists_collections_link (h : datastore ∈ datastores) (models : List Model) :
    ∃ identities, (link datastores models).collections? datastore = some identities := by
  have hcontains : (link datastores models).byDatastore.contains datastore = true :=
    link_induction (p := fun index => index.byDatastore.contains datastore = true)
      (contains_ofDatastores h) (fun _ name identity hindex => contains_add hindex name identity)
      models
  obtain ⟨names, hnames⟩ := Option.isSome_iff_exists.mp hcontains
  exact ⟨names.keys, congrArg (Option.map Dict.keys) hnames⟩

end GraphRecords.CollectionIndex
