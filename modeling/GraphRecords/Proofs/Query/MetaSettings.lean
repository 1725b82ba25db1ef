import GraphRecords.Proofs.Query.Modifiers
import GraphRecords.Query.Logical

/-!
# Metadata set by modifiers

Modifiers set keys of the metadata of a request. Metadata that was left out and metadata in a
dictionary take every key that is set, and the last value set for it counts. Metadata given as null
is read as if it had been left out, but takes nothing: what modifiers set there is lost.
-/

namespace GraphRecords

open Outcome

namespace Meta

/-- All values for flags are booleans. -/
def FlagsValid (given : String → Option Json) : Prop :=
  ∀ key ∈ flagKeys, ∀ value ∈ given key, value.isBool = true

instance (given : String → Option Json) : Decidable (FlagsValid given) :=
  inferInstanceAs (Decidable (∀ key ∈ flagKeys, ∀ value ∈ given key, value.isBool = true))

/-- What is read from a dictionary whose flags are valid. -/
def read (fields : Record) : Meta where
  fetch := isOn fields fetchKey
  skipHooks := isOn fields skipHooksKey
  extra := (fields.erase fetchKey).erase skipHooksKey

/-- The dictionary that metadata is read from; null counts as absent. -/
def fieldsOf? : Option Json → Option Record
  | none | some .null => some .empty
  | some (.obj fields) => some fields
  | some _ => none

/-- Metadata with the values given for its keys in the place of its own. -/
structure Sets (given : String → Option Json) (before after : Meta) : Prop where
  fetch : after.fetch = ((given fetchKey).bind Json.toBool?).getD before.fetch
  skipHooks : after.skipHooks = ((given skipHooksKey).bind Json.toBool?).getD before.skipHooks
  extra (key : String) : after.extra.get? key =
    if key = fetchKey ∨ key = skipHooksKey then none else (given key).or (before.extra.get? key)

private theorem checkFlag_eq_ok_iff {fields : Record} {key : String} :
    checkFlag fields key = .ok () ↔ ∀ value ∈ fields.get? key, value.isBool = true := by
  unfold checkFlag
  cases fields.get? key with
  | none => simp
  | some value => cases value <;> simp [Json.isBool]

theorem ofFields_eq_ok_iff {fields : Record} {callMeta : Meta} :
    ofFields fields = .ok callMeta ↔ FlagsValid fields.get? ∧ callMeta = read fields := by
  have hchecks : flagKeys.forM (checkFlag fields) = .ok () ↔ FlagsValid fields.get? := by
    simp only [forM_eq_ok_iff, checkFlag_eq_ok_iff, FlagsValid]
  rw [ofFields, bind_eq_ok_iff, ← hchecks]
  constructor
  · rintro ⟨_, hflags, h⟩
    exact ⟨hflags, (Except.ok.inj h).symm⟩
  · rintro ⟨hflags, rfl⟩
    exact ⟨(), hflags, rfl⟩

private theorem ofJson_eq_ok_iff {given : Option Json} {callMeta : Meta} :
    ofJson given = .ok callMeta ↔
      ∃ fields, fieldsOf? given = some fields ∧ FlagsValid fields.get? ∧
        callMeta = read fields := by
  have hempty : (.ok {} : Except MetaFault Meta) = .ok callMeta ↔
      ∃ fields, some Dict.empty = some fields ∧ FlagsValid fields.get? ∧
        callMeta = read fields := by
    constructor
    · intro h
      exact ⟨.empty, rfl, fun _ _ => nofun, (Except.ok.inj h).symm⟩
    · rintro ⟨_, he, _, rfl⟩
      cases he
      rfl
  cases given with
  | none => exact hempty
  | some value =>
    cases value with
    | null => exact hempty
    | obj fields =>
      rw [ofJson, ofFields_eq_ok_iff]
      exact ⟨fun h => ⟨fields, rfl, h⟩, fun ⟨_, he, h⟩ => Option.some.inj he ▸ h⟩
    | bool | num | str | arr =>
      constructor
      · nofun
      · rintro ⟨_, he, _⟩
        cases he

private theorem get?_extra_read (fields : Record) (key : String) :
    (read fields).extra.get? key =
      if key = fetchKey ∨ key = skipHooksKey then none else fields.get? key := by
  rw [read, Dict.get?_erase, Dict.get?_erase]
  by_cases hfetch : key = fetchKey <;> by_cases hskip : key = skipHooksKey <;> simp [hfetch, hskip]

section Override

variable {entries : List (String × Json)}

private theorem flagsValid_override {fields : Record} (hfields : FlagsValid fields.get?)
    (hentries : FlagsValid (Dict.lastValue entries)) :
    FlagsValid (fields.override ⟨entries⟩).get? := by
  intro key hkey value hvalue
  rw [Dict.get?_override_entries] at hvalue
  rcases Option.or_eq_some_iff.mp hvalue with h | ⟨_, h⟩
  · exact hentries key hkey value h
  · exact hfields key hkey value h

private theorem isOn_override (hentries : FlagsValid (Dict.lastValue entries)) {key : String}
    (hkey : key ∈ flagKeys) (fields : Record) :
    isOn (fields.override ⟨entries⟩) key =
      ((Dict.lastValue entries key).bind Json.toBool?).getD (isOn fields key) := by
  rw [isOn, Dict.get?_override_entries]
  cases hlast : Dict.lastValue entries key with
  | none => rfl
  | some value =>
    have hbool := hentries key hkey value hlast
    cases value with
    | bool => rfl
    | null | num | str | arr | obj => cases hbool

private theorem sets_read_override (hentries : FlagsValid (Dict.lastValue entries))
    (fields : Record) :
    Sets (Dict.lastValue entries) (read fields) (read (fields.override ⟨entries⟩)) where
  fetch := isOn_override hentries (by decide) fields
  skipHooks := isOn_override hentries (by decide) fields
  extra key := by
    rw [get?_extra_read, get?_extra_read, Dict.get?_override_entries]
    split <;> rfl

end Override

private theorem sets_empty_iff {given : String → Option Json} (hflags : FlagsValid given) :
    Sets given {} {} ↔ ∀ key value, given key = some value →
      (key = fetchKey ∨ key = skipHooksKey) ∧ value = .bool false := by
  have hflag {key : String} (hkey : key ∈ flagKeys) :
      false = ((given key).bind Json.toBool?).getD false ↔
        ∀ value, given key = some value → value = .bool false := by
    cases hgiven : given key with
    | none => simp
    | some value =>
      have hbool := hflags key hkey value hgiven
      cases value with
      | bool flag => cases flag <;> simp [Json.toBool?]
      | null | num | str | arr | obj => cases hbool
  constructor
  · intro h key value hvalue
    have hextra := h.extra key
    by_cases hnamed : key = fetchKey ∨ key = skipHooksKey
    · refine ⟨hnamed, ?_⟩
      rcases hnamed with rfl | rfl
      · exact (hflag (by decide)).mp h.fetch value hvalue
      · exact (hflag (by decide)).mp h.skipHooks value hvalue
    · rw [if_neg hnamed, hvalue] at hextra
      cases hextra
  · intro h
    refine ⟨(hflag (by decide)).mpr fun value hvalue => (h _ value hvalue).2,
      (hflag (by decide)).mpr fun value hvalue => (h _ value hvalue).2, fun key => ?_⟩
    split
    · rfl
    · rename_i hnamed
      cases hgiven : given key with
      | none => rfl
      | some value => exact absurd (h key value hgiven).1 hnamed

end Meta

namespace RequestModifier

/-- The key of the metadata that a modifier sets, and its value. -/
def setting? : RequestModifier → Option (String × Json)
  | fetch => some (Meta.fetchKey, .bool true)
  | metaKey key value => some (key, value)
  | skipHooks => some (Meta.skipHooksKey, .bool true)
  | filter _ | limit _ | skip _ | sort _ | select _ | omitting _ | set _ => none

/-- The last of the values that modifiers set for a key of the metadata. -/
def lastSet (modifiers : List RequestModifier) : String → Option Json :=
  Dict.lastValue (modifiers.filterMap setting?)

private theorem apply_eq_setMetaKey {modifier : RequestModifier} {key : String} {value : Json}
    (h : modifier.setting? = some (key, value)) (request : Request) :
    modifier.apply request = request.setMetaKey key value := by
  cases modifier <;> cases h <;> rfl

private theorem callMeta_apply_of_setting?_eq_none {modifier : RequestModifier}
    (h : modifier.setting? = none) (request : Request) :
    (modifier.apply request).callMeta = request.callMeta := by
  cases modifier with
  | fetch | metaKey | skipHooks => cases h
  | filter | limit | skip | sort | select | omitting | set => rfl

end RequestModifier

namespace Request

open RequestModifier

private theorem setMetaKey_of_null {request : Request} (h : request.callMeta = some .null)
    (key : String) (value : Json) : request.setMetaKey key value = request := by
  unfold setMetaKey
  rw [h]

private theorem callMeta_foldl_of_null (modifiers : List RequestModifier) {request : Request}
    (h : request.callMeta = some .null) :
    (modifiers.foldl RequestModifier.apply request).callMeta = some .null := by
  induction modifiers generalizing request with
  | nil => exact h
  | cons modifier rest ih =>
    apply ih
    cases hsetting : modifier.setting? with
    | none => rw [callMeta_apply_of_setting?_eq_none hsetting, h]
    | some entry => rw [apply_eq_setMetaKey hsetting, setMetaKey_of_null h, h]

private theorem fieldsOf?_setMetaKey {request : Request} (h : request.callMeta ≠ some .null)
    (key : String) (value : Json) :
    (request.setMetaKey key value).callMeta ≠ some .null ∧
      Meta.fieldsOf? (request.setMetaKey key value).callMeta =
        (Meta.fieldsOf? request.callMeta).map (·.insert key value) := by
  unfold setMetaKey
  cases hmeta : request.callMeta with
  | none => exact ⟨nofun, rfl⟩
  | some given =>
    cases given with
    | null => exact absurd hmeta h
    | obj => exact ⟨nofun, rfl⟩
    | bool | num | str | arr => simp [hmeta, Meta.fieldsOf?]

private theorem fieldsOf?_foldl (modifiers : List RequestModifier) {request : Request}
    (h : request.callMeta ≠ some .null) :
    Meta.fieldsOf? (modifiers.foldl RequestModifier.apply request).callMeta =
      (Meta.fieldsOf? request.callMeta).map (·.override ⟨modifiers.filterMap setting?⟩) := by
  induction modifiers generalizing request with
  | nil => exact Option.map_id.symm ▸ rfl
  | cons modifier rest ih =>
    rw [List.foldl_cons]
    cases hsetting : modifier.setting? with
    | none =>
      have hmeta := callMeta_apply_of_setting?_eq_none hsetting request
      rw [ih (hmeta ▸ h), hmeta, List.filterMap_cons_none hsetting]
    | some entry =>
      obtain ⟨hnull, hfields⟩ := fieldsOf?_setMetaKey h entry.1 entry.2
      rw [apply_eq_setMetaKey hsetting, ih hnull, hfields, List.filterMap_cons_some hsetting,
        Option.map_map]
      rfl

end Request

namespace LogicalQuery

variable {rules : RecordRules} {method : Method} {request : Request} {query next : LogicalQuery}

private theorem callMeta_of_selecting {model : Model} {criteria : Criteria}
    (h : selecting model query criteria = .ready next) : next.callMeta = query.callMeta := by
  unfold selecting at h
  split at h
  · cases h
  · cases h
    rfl

private theorem ofJson_of_normalize (h : normalize rules method request = .ok (.ready query)) :
    Meta.ofJson request.callMeta = .ok query.callMeta := by
  obtain ⟨callMeta, hmeta, h⟩ := bind_eq_ok_iff.mp h
  suffices hsame : query.callMeta = callMeta from hsame ▸ mapError_eq_ok_iff.mp hmeta
  cases method with
  | create =>
    simp only [normalizeCreate] at h
    split at h
    · obtain ⟨record, _, h⟩ := bind_eq_ok_iff.mp h
      cases h
      rfl
    · cases h
  | createEach | normalizeEach =>
    simp only [normalizeBatch] at h
    split at h
    · cases h
    · obtain ⟨records, _, h⟩ := bind_eq_ok_iff.mp h
      cases h
      rfl
    · cases h
  | find | findOne | count | destroy =>
    obtain ⟨criteria, _, h⟩ := bind_eq_ok_iff.mp h
    exact callMeta_of_selecting (Except.ok.inj h)
  | update =>
    obtain ⟨criteria, _, h⟩ := bind_eq_ok_iff.mp h
    obtain ⟨values, _, h⟩ := bind_eq_ok_iff.mp h
    exact callMeta_of_selecting (Except.ok.inj h)
  | replaceCollection => cases h

end LogicalQuery

namespace Request

open RequestModifier

/-- What modifiers set in the metadata of a request takes effect: the metadata is read with each
key that is set holding the last value set for it, and a query of the request has it so. Where the
request had null for its metadata this holds only if nothing was set but flags, to off. -/
theorem modify_sets_meta_iff (method : Method) (request : Request) (before : Meta)
    (h : Meta.ofJson request.callMeta = .ok before) (modifiers : List RequestModifier)
    (havailable : ∀ modifier ∈ modifiers, modifier.availableFor method = true)
    (hflags : Meta.FlagsValid (lastSet modifiers)) :
    ∃ next, request.modify? method modifiers = some next ∧
      ((∃ after, Meta.ofJson next.callMeta = .ok after ∧
        Meta.Sets (lastSet modifiers) before after ∧
        ∀ rules query, LogicalQuery.normalize rules method next = .ok (.ready query) →
          query.callMeta = after) ↔
        (request.callMeta = some .null → ∀ key value, lastSet modifiers key = some value →
          (key = Meta.fetchKey ∨ key = Meta.skipHooksKey) ∧ value = .bool false)) := by
  refine ⟨_, modify?_eq_some havailable request, ?_⟩
  by_cases hnull : request.callMeta = some .null
  · have hnext := callMeta_foldl_of_null modifiers hnull
    rw [hnull] at h
    cases h
    simp only [hnull, true_imp_iff, ← Meta.sets_empty_iff hflags]
    constructor
    · rintro ⟨after, hafter, hsets, _⟩
      rw [hnext] at hafter
      cases hafter
      exact hsets
    · intro hsets
      refine ⟨{}, hnext ▸ rfl, hsets, fun rules query hquery => ?_⟩
      have hread := LogicalQuery.ofJson_of_normalize hquery
      rw [hnext] at hread
      exact (Except.ok.inj hread).symm
  · refine iff_of_true ?_ fun he => absurd he hnull
    obtain ⟨fields, hfields, hvalid, rfl⟩ := Meta.ofJson_eq_ok_iff.mp h
    have hnext : Meta.fieldsOf? (modifiers.foldl RequestModifier.apply request).callMeta =
        some (fields.override ⟨modifiers.filterMap setting?⟩) := by
      rw [fieldsOf?_foldl modifiers hnull, hfields, Option.map_some]
    have hafter := Meta.ofJson_eq_ok_iff.mpr
      ⟨_, hnext, Meta.flagsValid_override hvalid hflags, rfl⟩
    refine ⟨_, hafter, Meta.sets_read_override hflags fields, fun rules query hquery => ?_⟩
    exact Except.ok.inj ((LogicalQuery.ofJson_of_normalize hquery).symm.trans hafter)

private def tracedCreate : Request where
  newRecord := some (.obj ⟨[("id", Json.nat 1)]⟩)
  callMeta := some (.obj ⟨[("fetch", .bool false), ("trace", .str "a")]⟩)

/-- The trace is set twice, to null in the end. -/
private def settingChain : List RequestModifier :=
  [.metaKey "trace" (.str "b"), .fetch, .skipHooks, .metaKey "trace" .null]

theorem modify_sets_meta_iff_traced : ∃ next after,
    tracedCreate.modify? .create settingChain = some next ∧
      Meta.ofJson next.callMeta = .ok after ∧ after.fetch = true ∧ after.skipHooks = true ∧
        after.extra.get? "trace" = some .null := by
  obtain ⟨next, hnext, hiff⟩ := modify_sets_meta_iff .create tracedCreate
    { extra := ⟨[("trace", .str "a")]⟩ } rfl settingChain (by decide) (by decide)
  obtain ⟨after, hafter, hsets, _⟩ := hiff.mpr (fun he => nomatch he)
  exact ⟨next, after, hnext, hafter, hsets.fetch, hsets.skipHooks, hsets.extra "trace"⟩

private def nullMeta : Request where
  callMeta := some .null

/-- A call with null for its metadata is not told to fetch. -/
theorem fetch_lost_on_null_meta : Meta.ofJson nullMeta.callMeta = .ok {} ∧
    nullMeta.modify? .create [.fetch] = some nullMeta ∧
      ¬ ∃ after, Meta.ofJson nullMeta.callMeta = .ok after ∧
        Meta.Sets (lastSet [.fetch]) {} after := by
  refine ⟨rfl, rfl, ?_⟩
  rintro ⟨after, hafter, hsets⟩
  cases hafter
  exact absurd hsets.fetch (by decide)

end Request

end GraphRecords
