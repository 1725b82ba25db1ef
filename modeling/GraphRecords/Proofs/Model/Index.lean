import GraphRecords.Model.Index
import GraphRecords.Proofs.Dict.Entries
import GraphRecords.Proofs.Outcome
import Mathlib.Data.List.TakeWhile

/-!
# Index descriptors

What a dictionary has to be like to describe an index over known attributes, and the index that it
then describes. The index is read back from what is written of it, because its options keep away
from its own keys.
-/

namespace GraphRecords.Index

open Outcome

variable {known : List String} {descriptor : Record} {index : Index} {key : String}

/-- The path leads into what has the name: the name has no dot, and the path is the name alone or
goes on behind it with a dot. -/
def PathInto (name path : String) : Prop :=
  '.' ∉ name.toList ∧ (path = name ∨ ∃ rest, path = name ++ "." ++ rest)

private theorem toList_leadingSegment (path : String) :
    (leadingSegment path).toList = path.toList.takeWhile (· ≠ '.') := String.toList_ofList

/-- A path leads into what its leading segment names, and into nothing else. -/
theorem leadingSegment_eq_iff {name path : String} :
    leadingSegment path = name ↔ PathInto name path := by
  constructor
  · rintro rfl
    have hsplit : path.toList =
        (leadingSegment path).toList ++ path.toList.dropWhile (· ≠ '.') := by
      rw [toList_leadingSegment, List.takeWhile_append_dropWhile]
    refine ⟨fun hdot => ?_, ?_⟩
    · rw [toList_leadingSegment] at hdot
      simpa using List.mem_takeWhile_imp hdot
    · cases hrest : path.toList.dropWhile (· ≠ '.') with
      | nil =>
        rw [hrest, List.append_nil] at hsplit
        exact .inl (String.toList_inj.mp hsplit)
      | cons next rest =>
        have hnext := List.head_dropWhile_not (· ≠ '.') (hrest ▸ List.cons_ne_nil next rest)
        simp only [hrest, List.head_cons, decide_eq_false_iff_not, ne_eq, not_not] at hnext
        refine .inr ⟨String.ofList rest, String.toList_inj.mp ?_⟩
        rw [hrest, hnext] at hsplit
        simpa using hsplit
  · rintro ⟨hdot, h⟩
    have hname : ∀ c ∈ name.toList, c ≠ '.' := by
      rintro c hc rfl
      exact hdot hc
    rw [← String.toList_inj, toList_leadingSegment]
    rcases h with rfl | ⟨rest, rfl⟩
    · exact List.takeWhile_eq_self_iff.mpr (by simpa using hname)
    · rw [String.toList_append, String.toList_append, List.append_assoc,
        List.takeWhile_append_of_pos (by simpa using hname)]
      simp

theorem leadingSegment_mem_iff {path : String} :
    leadingSegment path ∈ known ↔ ∃ name ∈ known, PathInto name path := by
  simp only [← leadingSegment_eq_iff, exists_eq_right']

example : leadingSegment "home.city.name" = "home" := by decide

example : leadingSegment "home" = "home" := by decide

private theorem readFields_eq_ok_iff {fields : List String} : readFields descriptor = .ok fields ↔
    descriptor.get? "fields" = none ∧ fields = [] ∨
      descriptor.get? "fields" = some (Json.strings fields) := by
  have hfield (value : Json) (field : String) :
      readField value = .ok field ↔ value = .str field := by
    cases value <;> simp [readField]
  unfold readFields
  cases descriptor.get? "fields" with
  | none => simp [eq_comm]
  | some value =>
    cases value with
    | arr entries =>
      simp only [mapM_eq_ok_iff_map hfield, reduceCtorEq, false_and, false_or, Option.some.injEq,
        Json.strings, Json.arr.injEq]
    | null | bool | num | str | obj => simp [Json.strings]

private theorem readFlag_eq_ok_iff {fault : IndexFault} {flag : Option Bool} :
    readFlag descriptor key fault = .ok flag ↔ descriptor.get? key = flag.map .bool := by
  unfold readFlag
  cases descriptor.get? key with
  | none => cases flag <;> simp
  | some value => cases value <;> cases flag <;> simp

private theorem checkFields_eq_ok_iff {fields : List String} :
    checkFields known fields = .ok () ↔ ∀ field ∈ fields, leadingSegment field ∈ known := by
  unfold checkFields
  split
  · rename_i hnone
    refine ⟨fun _ field hfield => ?_, fun _ => rfl⟩
    simpa using List.find?_eq_none.mp hnone field hfield
  · rename_i field hsome
    refine ⟨nofun, fun h => ?_⟩
    have hunknown := List.find?_some hsome
    simp [h field (List.mem_of_find?_eq_some hsome)] at hunknown

/-- The index is what the dictionary describes. -/
structure ReadsAs (known : List String) (descriptor : Record) (index : Index) : Prop where
  fields : descriptor.get? "fields" = none ∧ index.fields = [] ∨
    descriptor.get? "fields" = some (Json.strings index.fields)
  geoJson : ∃ flag : Option Bool, descriptor.get? "geoJson" = flag.map .bool ∧
    index.geoJson = flag.getD false
  sparse : descriptor.get? "sparse" = index.sparse.map .bool
  leading (field : String) (h : field ∈ index.fields) : leadingSegment field ∈ known
  options : index.options = descriptor.filter (fun key _ => !ownKeys.contains key)

private theorem ofDescriptor_eq_ok_iff :
    ofDescriptor known descriptor = .ok index ↔ ReadsAs known descriptor index := by
  simp only [ofDescriptor, bind_eq_ok_iff, readFields_eq_ok_iff, readFlag_eq_ok_iff]
  constructor
  · rintro ⟨fields, hfields, geoJson, hgeoJson, sparse, hsparse, _, hleading, h⟩
    cases h
    exact {
      fields := hfields
      geoJson := ⟨geoJson, hgeoJson, rfl⟩
      sparse := hsparse
      leading := checkFields_eq_ok_iff.mp hleading
      options := rfl }
  · intro h
    obtain ⟨geoJson, hgeoJson, hflag⟩ := h.geoJson
    refine ⟨index.fields, h.fields, geoJson, hgeoJson, index.sparse, h.sparse, (),
      checkFields_eq_ok_iff.mpr h.leading, ?_⟩
    rw [← hflag, ← h.options]

theorem parse_eq_ok_iff {raw : Json} : parse known raw = .ok index ↔
    ∃ descriptor, raw = .obj descriptor ∧ ReadsAs known descriptor index := by
  cases raw with
  | obj descriptor => simp [parse, ofDescriptor_eq_ok_iff]
  | null | bool | num | str | arr => simp [parse]

/-- The dictionary can describe an index over the known attributes. -/
structure Definable (known : List String) (descriptor : Record) : Prop where
  fields (value : Json) (h : value ∈ descriptor.get? "fields") :
    ∃ fields, value = Json.strings fields ∧ ∀ field ∈ fields, ∃ name ∈ known, PathInto name field
  flags (key : String) (hkey : key ∈ ["geoJson", "sparse"]) (value : Json)
    (h : value ∈ descriptor.get? key) : ∃ flag, value = .bool flag

private theorem exists_readsAs_iff :
    (∃ index, ReadsAs known descriptor index) ↔ Definable known descriptor := by
  constructor
  · rintro ⟨index, h⟩
    obtain ⟨geoJson, hgeoJson, _⟩ := h.geoJson
    refine ⟨fun value hvalue => ?_, fun key hkey => ?_⟩
    · rcases h.fields with ⟨hnone, _⟩ | hfields
      · rw [hnone] at hvalue
        cases hvalue
      · rw [hfields] at hvalue
        cases hvalue
        exact ⟨index.fields, rfl, fun field hfield =>
          leadingSegment_mem_iff.mp (h.leading field hfield)⟩
    · simp only [List.mem_cons, List.not_mem_nil, or_false] at hkey
      rcases hkey with rfl | rfl
      · exact exists_eq_map_iff.mp ⟨_, hgeoJson⟩
      · exact exists_eq_map_iff.mp ⟨_, h.sparse⟩
  · intro h
    have hfields : ∃ fields : List String, (descriptor.get? "fields" = none ∧ fields = [] ∨
        descriptor.get? "fields" = some (Json.strings fields)) ∧
          ∀ field ∈ fields, leadingSegment field ∈ known := by
      cases hget : descriptor.get? "fields" with
      | none => exact ⟨[], .inl ⟨rfl, rfl⟩, nofun⟩
      | some value =>
        obtain ⟨fields, rfl, hleading⟩ := h.fields value hget
        exact ⟨fields, .inr rfl, fun field hfield =>
          leadingSegment_mem_iff.mpr (hleading field hfield)⟩
    obtain ⟨fields, hfields, hleading⟩ := hfields
    obtain ⟨geoJson, hgeoJson⟩ := exists_eq_map_iff.mpr (h.flags "geoJson" (by decide))
    obtain ⟨sparse, hsparse⟩ := exists_eq_map_iff.mpr (h.flags "sparse" (by decide))
    exact ⟨⟨fields, geoJson.getD false, sparse, _⟩, {
      fields := hfields
      geoJson := ⟨geoJson, hgeoJson, rfl⟩
      sparse := hsparse
      leading := hleading
      options := rfl }⟩

/-- A dictionary is read as an index exactly when it can describe one. -/
theorem exists_parse_iff {raw : Json} : (∃ index, parse known raw = .ok index) ↔
    ∃ descriptor, raw = .obj descriptor ∧ Definable known descriptor := by
  simp only [parse_eq_ok_iff, ← exists_readsAs_iff]
  constructor
  · rintro ⟨index, descriptor, hraw, h⟩
    exact ⟨descriptor, hraw, index, h⟩
  · rintro ⟨descriptor, hraw, index, h⟩
    exact ⟨index, descriptor, hraw, h⟩

/-- The options are in order and keep away from the index's own keys, and its fields are known. -/
structure Readable (known : List String) (index : Index) : Prop where
  ordered : index.options.Ordered
  apart (key : String) (h : key ∈ index.options.keys) : key ∉ ownKeys
  leading (field : String) (h : field ∈ index.fields) : leadingSegment field ∈ known

private theorem ReadsAs.get?_options (h : ReadsAs known descriptor index) (key : String) :
    index.options.get? key = if key ∈ ownKeys then none else descriptor.get? key := by
  rw [h.options, Dict.get?_filter descriptor (fun key => !ownKeys.contains key)]
  by_cases hkey : key ∈ ownKeys <;> simp [hkey]

private theorem ReadsAs.readable (h : ReadsAs known descriptor index) (hd : descriptor.Ordered) :
    index.Readable known where
  ordered := h.options ▸ hd.filter _
  apart key hkey := by
    intro hown
    exact Dict.get?_eq_none_iff.mp ((h.get?_options key).trans (if_pos hown)) hkey
  leading := h.leading

private theorem keys_ownEntries_sublist (index : Index) :
    (index.ownEntries.map Prod.fst).Sublist ownKeys := by
  unfold ownEntries ownKeys
  cases index.sparse <;> simp

theorem Readable.nodup_keys (h : index.Readable known) :
    (index.toEntries.map Prod.fst).Nodup := by
  have hsub := keys_ownEntries_sublist index
  have hown : (index.ownEntries.map Prod.fst).Nodup := hsub.nodup (by decide)
  rw [toEntries, List.map_append]
  refine List.nodup_append.mpr ⟨hown, h.ordered.nodup_keys, ?_⟩
  intro key hkey other hother he
  exact h.apart other hother (he ▸ hsub.subset hkey)

private theorem Readable.filter_toEntries (h : index.Readable known) :
    index.toEntries.filter (fun entry => !ownKeys.contains entry.1) = index.options.entries := by
  have hown : index.ownEntries.filter (fun entry => !ownKeys.contains entry.1) = [] := by
    refine List.filter_eq_nil_iff.mpr fun entry he => ?_
    simpa using (keys_ownEntries_sublist index).subset (List.mem_map_of_mem he)
  have hoptions : index.options.entries.filter (fun entry => !ownKeys.contains entry.1) =
      index.options.entries := by
    refine List.filter_eq_self.mpr fun entry he => ?_
    simpa using h.apart entry.1 (List.mem_map_of_mem he)
  rw [toEntries, List.filter_append, hown, hoptions, List.nil_append]

theorem Readable.get?_eq_some_iff (h : index.Readable known) {value : Json} :
    (Dict.ofList index.toEntries).get? key = some value ↔ (key, value) ∈ index.toEntries :=
  Dict.get?_ofList_eq_some_iff h.nodup_keys

private theorem Readable.get?_fields (h : index.Readable known) :
    (Dict.ofList index.toEntries).get? "fields" = some (Json.strings index.fields) :=
  h.get?_eq_some_iff.mpr (by simp [toEntries, ownEntries])

private theorem Readable.get?_geoJson (h : index.Readable known) :
    (Dict.ofList index.toEntries).get? "geoJson" = some (.bool index.geoJson) :=
  h.get?_eq_some_iff.mpr (by simp [toEntries, ownEntries])

private theorem Readable.get?_sparse (h : index.Readable known) :
    (Dict.ofList index.toEntries).get? "sparse" = index.sparse.map .bool := by
  cases hsparse : index.sparse with
  | none =>
    have hown : "sparse" ∉ index.ownEntries.map Prod.fst := by simp [ownEntries, hsparse]
    have hoption : "sparse" ∉ index.options.keys := fun hkey => h.apart _ hkey (by decide)
    apply Dict.get?_ofList_eq_none_iff.mpr
    rw [toEntries, List.map_append, List.mem_append]
    exact not_or.mpr ⟨hown, hoption⟩
  | some flag => exact h.get?_eq_some_iff.mpr (by simp [toEntries, ownEntries, hsparse])

private theorem Readable.readsAs (h : index.Readable known) :
    ReadsAs known (Dict.ofList index.toEntries) index where
  fields := .inr h.get?_fields
  geoJson := ⟨some index.geoJson, h.get?_geoJson, rfl⟩
  sparse := h.get?_sparse
  leading := h.leading
  options := by
    apply Dict.eq_of_perm h.ordered ((Dict.ordered_ofList _).filter _)
    have hperm := (Dict.ofList_perm h.nodup_keys).filter fun entry => !ownKeys.contains entry.1
    rw [h.filter_toEntries] at hperm
    exact hperm.symm

/-- What is written of an index is read as that index exactly when its options keep away from its
own keys and its fields are known. -/
theorem parse_toJson_iff : parse known index.toJson = .ok index ↔ index.Readable known := by
  constructor
  · intro h
    obtain ⟨written, hwritten, hreads⟩ := parse_eq_ok_iff.mp h
    cases hwritten
    exact hreads.readable (Dict.ordered_ofList _)
  · intro h
    exact parse_eq_ok_iff.mpr ⟨_, rfl, h.readsAs⟩

/-- What is written of an index even where its descriptor leaves it out. -/
def unset : Record := ⟨[("fields", Json.strings []), ("geoJson", .bool false)]⟩

private theorem ReadsAs.get?_written (h : ReadsAs known descriptor index) (hd : descriptor.Ordered)
    (key : String) : (Dict.ofList index.toEntries).get? key =
      (descriptor.get? key).or (unset.get? key) := by
  have hreadable := h.readable hd
  by_cases hkey : key ∈ ownKeys
  · simp only [ownKeys, List.mem_cons, List.not_mem_nil, or_false] at hkey
    rcases hkey with rfl | rfl | rfl
    · rw [hreadable.get?_fields]
      rcases h.fields with ⟨hnone, hempty⟩ | hfields
      · rw [hnone, hempty]
        rfl
      · rw [hfields]
        rfl
    · obtain ⟨flag, hflag, hvalue⟩ := h.geoJson
      rw [hreadable.get?_geoJson, hflag, hvalue]
      cases flag <;> rfl
    · rw [hreadable.get?_sparse, h.sparse]
      exact Option.or_none.symm
  -- Both dictionaries read as the index, so they have its options in common.
  · have hoption := h.get?_options key
    rw [hreadable.readsAs.get?_options, if_neg hkey, if_neg hkey] at hoption
    have hunset : unset.get? key = none := by
      refine Dict.get?_eq_none_iff.mpr fun hmem => hkey ?_
      exact (List.sublist_append_left ["fields", "geoJson"] ["sparse"]).subset hmem
    rw [hoption, hunset, Option.or_none]

private theorem ReadsAs.mem_written_iff (h : ReadsAs known descriptor index)
    (hd : descriptor.Ordered)
    (entry : String × Json) : entry ∈ (Dict.ofList index.toEntries).entries ↔
      entry ∈ descriptor.entries ∨ entry ∈ unset.entries ∧ entry.1 ∉ descriptor.keys := by
  have hunset : unset.Ordered := by decide
  rw [← Dict.get?_eq_some_iff (Dict.ordered_ofList _), h.get?_written hd, Option.or_eq_some_iff,
    Dict.get?_eq_some_iff hd, Dict.get?_eq_none_iff, Dict.get?_eq_some_iff hunset, and_comm]

/-- What is written of an index that was read from a descriptor with its keys in order. Every key
is written once. The entries are those of the descriptor and, where it has none, the empty list of
fields and the flag that is off. What is written is read as the same index. -/
theorem parse_written {raw : Json} (hraw : ∀ given ∈ raw.toObject?, given.Ordered)
    (h : parse known raw = .ok index) :
    ∃ given written : Record, raw = .obj given ∧ index.toJson = .obj written ∧ written.Ordered ∧
      (index.toEntries.map Prod.fst).Nodup ∧
      (∀ entry, entry ∈ written.entries ↔
        entry ∈ given.entries ∨ entry ∈ unset.entries ∧ entry.1 ∉ given.keys) ∧
      parse known (.obj written) = .ok index := by
  obtain ⟨given, rfl, hreads⟩ := parse_eq_ok_iff.mp h
  have hgiven : given.Ordered := hraw given rfl
  have hreadable := hreads.readable hgiven
  refine ⟨given, Dict.ofList index.toEntries, rfl, rfl, Dict.ordered_ofList _, ?_, ?_, ?_⟩
  · exact hreadable.nodup_keys
  · exact hreads.mem_written_iff hgiven
  · exact parse_toJson_iff.mpr hreadable

private def spots : Record := ⟨[
  ("Fields", .null),
  ("fields", Json.strings ["location.coordinates", "name", "name"]),
  ("geojson", Json.nat 1),
  ("sparse", .bool false)]⟩

private def spotIndex : Index where
  fields := ["location.coordinates", "name", "name"]
  geoJson := false
  sparse := some false
  options := ⟨[("Fields", .null), ("geojson", Json.nat 1)]⟩

/-- A descriptor whose options look like keys of the index's own comes back with one flag more. -/
theorem parse_written_spots :
    parse ["location", "name"] (.obj spots) = .ok spotIndex ∧
      ∃ written : Record, spotIndex.toJson = .obj written ∧
        (∀ entry, entry ∈ written.entries ↔
          entry ∈ spots.entries ∨ entry = ("geoJson", .bool false)) ∧
        parse ["location", "name"] (.obj written) = .ok spotIndex := by
  have hraw : ∀ given ∈ (Json.obj spots).toObject?, given.Ordered := by
    rintro _ ⟨⟩
    decide
  have hparse : parse ["location", "name"] (.obj spots) = .ok spotIndex := rfl
  refine ⟨hparse, ?_⟩
  obtain ⟨given, written, hgiven, hwritten, _, _, hentries, hback⟩ := parse_written hraw hparse
  cases hgiven
  refine ⟨written, hwritten, fun entry => (hentries entry).trans (or_congr_right ?_), hback⟩
  simp only [unset, List.mem_cons, List.not_mem_nil, or_false]
  constructor
  · rintro ⟨rfl | rfl, hkey⟩
    · exact absurd hkey (by decide)
    · rfl
  · rintro rfl
    exact ⟨.inr rfl, by decide⟩

end GraphRecords.Index
