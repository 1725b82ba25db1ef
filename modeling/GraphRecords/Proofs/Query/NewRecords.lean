import GraphRecords.Proofs.Query.EdgeUpdates
import GraphRecords.Proofs.Query.Validity

/-!
# Accepted new records

Which records are taken as new ones, said without the order in which they are checked, and what
they are completed to: the entries that are given, and a value for each attribute that is left out
and has one. A batch is taken exactly where each of its values is taken alone.
-/

namespace GraphRecords

open Outcome

/-- What the rules ask of a record that is given. -/
structure RecordRules.Accepts (rules : RecordRules) (given : Record) : Prop where
  recognized (hstrict : rules.strict = true) (key : String) (h : key ∈ given.keys) :
    rules.model.recognizes key = true
  admits (key : String) (a : Attribute) (ha : rules.model.attribute? key = some a) (value : Json)
    (h : given.get? key = some value) : a.Admits rules.schema value
  ends (h : rules.model.role.isEdge = true) : given.HasEnds
  filled (a : Attribute) (ha : a ∈ rules.model.attributes.values) (h : a.required = true)
    (hnone : given.get? a.name = none) :
    a.isCollection = true ∨ a.isTimestamp = true ∨ a.defaultValue.isSome = true

/-- What an attribute that is left out is filled with: an empty list where it is a to-many
association, else the instant where it is a timestamp, counted in milliseconds if it is of type
number and written out if it is not, else its default. -/
inductive RecordRules.Fills (rules : RecordRules) (a : Attribute) : Json → Prop
  | members (hmany : a.isCollection = true) : Fills rules a (.arr [])
  | milliseconds (hone : a.isCollection = false)
      (htimestamp : a.autoCreatedAt = true ∨ a.autoUpdatedAt = true)
      (htype : a.valueType = some .number) : Fills rules a (.num (.int rules.now.milliseconds))
  | instant (hone : a.isCollection = false)
      (htimestamp : a.autoCreatedAt = true ∨ a.autoUpdatedAt = true)
      (htype : a.valueType ≠ some .number) : Fills rules a (.str rules.now.render)
  | default (hone : a.isCollection = false)
      (huntimed : a.autoCreatedAt = false ∧ a.autoUpdatedAt = false) (value : Json)
      (hdefault : a.defaultValue = some value) : Fills rules a value

/-- The record has the entries that are given, and beside them a value for each attribute that is
left out and has something to be filled with. -/
structure RecordRules.FilledFrom (rules : RecordRules) (given record : Record) : Prop where
  ordered : record.Ordered
  kept (name : String) (value : Json) (h : given.get? name = some value) :
    record.get? name = some value
  filled (name : String) (h : given.get? name = none) (value : Json) :
    record.get? name = some value ↔
      ∃ a, rules.model.attribute? name = some a ∧ rules.Fills a value

/-- The call that gives one value as its new record, and nothing else in another way. -/
def Request.single (request : Request) (value : Json) : Request :=
  { request with newRecord := some value }

namespace RecordRules

variable {rules : RecordRules} {given record : Record} {a : Attribute}
variable {attributes : List Attribute} {key : String} {value : Json}

private theorem timestamp_of_number (h : a.valueType = some .number) :
    rules.timestamp a = .num (.int rules.now.milliseconds) := by
  rw [timestamp, h]
  rfl

private theorem timestamp_of_ne_number (h : a.valueType ≠ some .number) :
    rules.timestamp a = .str rules.now.render := by
  unfold timestamp
  split
  · rename_i hnumber
    exact absurd hnumber h
  · rfl

theorem fill?_eq_some_iff : rules.fill? a = some value ↔ rules.Fills a value := by
  have htimestamp : a.isTimestamp = true ↔ a.autoCreatedAt = true ∨ a.autoUpdatedAt = true := by
    rw [Attribute.isTimestamp, Bool.or_eq_true]
  constructor
  · intro h
    unfold fill? at h
    split at h
    · rename_i hmany
      cases h
      exact .members hmany
    · rename_i hone
      rw [Bool.not_eq_true] at hone
      split at h
      · rename_i htimed
        cases h
        by_cases htype : a.valueType = some .number
        · rw [timestamp_of_number htype]
          exact .milliseconds hone (htimestamp.mp htimed) htype
        · rw [timestamp_of_ne_number htype]
          exact .instant hone (htimestamp.mp htimed) htype
      · rename_i huntimed
        exact .default hone (by simpa [htimestamp] using huntimed) value h
  · intro h
    unfold fill?
    cases h with
    | members hmany => rw [if_pos hmany]
    | milliseconds hone htimed htype =>
      rw [if_neg (by simp [hone]), if_pos (htimestamp.mpr htimed), timestamp_of_number htype]
    | instant hone htimed htype =>
      rw [if_neg (by simp [hone]), if_pos (htimestamp.mpr htimed), timestamp_of_ne_number htype]
    | default hone huntimed _ hdefault =>
      rw [if_neg (by simp [hone]), if_neg (by simp [htimestamp, huntimed]), hdefault]

private theorem isSome_fill?_iff : (rules.fill? a).isSome = true ↔
    a.isCollection = true ∨ a.isTimestamp = true ∨ a.defaultValue.isSome = true := by
  unfold fill?
  cases a.isCollection with
  | true => simp
  | false => cases a.isTimestamp <;> simp

/-- A required attribute is given and not null, or has something to be filled with. -/
def Completable (rules : RecordRules) (given : Record) (a : Attribute) : Prop :=
  a.required = true →
    match given.get? a.name with
    | some value => value.isNull = false
    | none => (rules.fill? a).isSome = true

private theorem exists_complete_iff :
    (∃ record, rules.complete given a = .ok record) ↔ rules.Completable given a := by
  unfold complete Completable
  cases hvalue : given.get? a.name with
  | some value => cases a.required <;> cases hnull : value.isNull <;> simp [hnull]
  | none => cases rules.fill? a <;> cases a.required <;> simp

private theorem exists_foldlM_complete_iff (hnames : (attributes.map Attribute.name).Nodup) :
    (∃ record, attributes.foldlM rules.complete given = .ok record) ↔
      ∀ a ∈ attributes, rules.Completable given a := by
  induction attributes generalizing given with
  | nil => exact ⟨fun _ => List.forall_mem_nil _, fun _ => ⟨given, rfl⟩⟩
  | cons a rest ih =>
    obtain ⟨hname, hnames⟩ := List.nodup_cons.mp hnames
    have hrest (next : Record) (hnext : rules.complete given a = .ok next) :
        (∃ record, rest.foldlM rules.complete next = .ok record) ↔
          ∀ b ∈ rest, rules.Completable given b := by
      rw [ih hnames]
      refine forall₂_congr fun b hb => ?_
      have hne : b.name ∉ [a].map Attribute.name := fun hm =>
        hname (List.mem_singleton.mp hm ▸ List.mem_map_of_mem hb)
      rw [Completable, (completes_of_complete hnext).other b.name hne, Completable]
    rw [List.forall_mem_cons, ← exists_complete_iff, List.foldlM_cons]
    constructor
    · rintro ⟨record, h⟩
      obtain ⟨next, hnext, h⟩ := bind_eq_ok_iff.mp h
      exact ⟨⟨next, hnext⟩, (hrest next hnext).mp ⟨record, h⟩⟩
    · rintro ⟨⟨next, hnext⟩, h⟩
      obtain ⟨record, hrecord⟩ := (hrest next hnext).mpr h
      exact ⟨record, bind_eq_ok_iff.mpr ⟨next, hnext, hrecord⟩⟩

private theorem checkEndpoints_eq_ok_iff :
    rules.checkEndpoints given = .ok () ↔ (rules.model.role.isEdge = true → given.HasEnds) := by
  unfold checkEndpoints Dict.HasEnds
  cases rules.model.role.isEdge with
  | false => simp
  | true =>
    rw [if_pos rfl, forM_eq_ok_iff, forall_prop_of_true rfl]
    refine forall₂_congr fun endpoint _ => ?_
    unfold checkEndpoint
    split
    · rename_i htext
      exact ⟨fun _ => htext, fun _ => rfl⟩
    · rename_i htext
      exact ⟨nofun, fun h => absurd h htext⟩

private theorem checkEntry_of_declared {entry : String × Json}
    (ha : rules.model.attribute? entry.1 = some a) :
    rules.checkEntry entry = .ok () ↔ rules.checkDeclared a entry.1 entry.2 = .ok () := by
  rw [checkEntry, mapError_eq_ok_iff, checkValue, ha]

private theorem checkEntry_of_undeclared {entry : String × Json}
    (ha : rules.model.attribute? entry.1 = none) :
    rules.checkEntry entry = .ok () ↔
      (rules.strict = true → rules.model.recognizes entry.1 = true) := by
  rw [checkEntry, mapError_eq_ok_iff, checkValue, ha]
  cases rules.strict <;> cases rules.model.recognizes entry.1 <;> simp

private theorem exists_newRecord_iff (hnamed : rules.model.AttributesNamed) :
    (∃ record, rules.newRecord given = .ok record) ↔
      (∀ entry ∈ given.entries, rules.checkEntry entry = .ok ()) ∧
        rules.checkEndpoints given = .ok () ∧
        ∀ a ∈ rules.model.attributes.values, rules.Completable given a := by
  have hnames : (rules.model.attributes.values.map Attribute.name).Nodup := by
    rw [hnamed.values_names]
    exact hnamed.ordered.nodup_keys
  rw [← forM_eq_ok_iff, ← exists_foldlM_complete_iff hnames]
  simp only [newRecord, bind_eq_ok_iff]
  constructor
  · rintro ⟨record, _, hentries, _, hends, h⟩
    exact ⟨hentries, hends, record, h⟩
  · rintro ⟨hentries, hends, record, h⟩
    exact ⟨record, (), hentries, (), hends, h⟩

private theorem accepts_of_checks (hnamed : rules.model.AttributesNamed)
    (hentries : ∀ entry ∈ given.entries, rules.checkEntry entry = .ok ())
    (hends : rules.checkEndpoints given = .ok ())
    (hcompletable : ∀ a ∈ rules.model.attributes.values, rules.Completable given a) :
    rules.Accepts given where
  recognized hstrict key hkey := by
    obtain ⟨entry, hentry, rfl⟩ := List.mem_map.mp hkey
    cases ha : rules.model.attribute? entry.1 with
    | some a => exact Model.recognizes_of_attribute? ha
    | none => exact (checkEntry_of_undeclared ha).mp (hentries entry hentry) hstrict
  admits key a ha value hvalue := by
    have hcheck := hentries (key, value) (Dict.mem_of_lookup hvalue)
    refine (admits_iff key).mpr ⟨(checkEntry_of_declared ha).mp hcheck, fun hrequired => ?_⟩
    have hname := hnamed.name_of_attribute? ha
    subst hname
    have hgiven := hcompletable a (hnamed.mem_values_iff.mpr ha) hrequired
    rwa [hvalue] at hgiven
  ends := checkEndpoints_eq_ok_iff.mp hends
  filled a ha hrequired hnone := by
    have hgiven := hcompletable a ha hrequired
    rw [hnone] at hgiven
    exact isSome_fill?_iff.mp hgiven

private theorem exists_newRecord_iff_accepts (hnamed : rules.model.AttributesNamed)
    (hg : given.Ordered) :
    (∃ record, rules.newRecord given = .ok record) ↔ rules.Accepts given := by
  rw [exists_newRecord_iff hnamed]
  constructor
  · rintro ⟨hentries, hends, hcompletable⟩
    exact accepts_of_checks hnamed hentries hends hcompletable
  · intro h
    refine ⟨?_, checkEndpoints_eq_ok_iff.mpr h.ends, ?_⟩
    · intro entry hentry
      have hvalue : given.get? entry.1 = some entry.2 := (Dict.get?_eq_some_iff hg).mpr hentry
      cases ha : rules.model.attribute? entry.1 with
      | some a =>
        have hadmits := h.admits entry.1 a ha entry.2 hvalue
        exact (checkEntry_of_declared ha).mpr ((admits_iff entry.1).mp hadmits).1
      | none =>
        exact (checkEntry_of_undeclared ha).mpr fun hstrict =>
          h.recognized hstrict entry.1 (List.mem_map_of_mem hentry)
    · intro a ha hrequired
      cases hvalue : given.get? a.name with
      | some value =>
        exact (h.admits a.name a (hnamed.mem_values_iff.mp ha) value hvalue).required hrequired
      | none => exact isSome_fill?_iff.mpr (h.filled a ha hrequired hvalue)

private theorem foldlM_complete_ordered (hg : given.Ordered)
    (h : attributes.foldlM rules.complete given = .ok record) : record.Ordered := by
  induction attributes generalizing given with
  | nil =>
    cases h
    exact hg
  | cons a rest ih =>
    rw [List.foldlM_cons] at h
    obtain ⟨next, hnext, h⟩ := bind_eq_ok_iff.mp h
    refine ih ?_ h
    rcases complete_eq_ok hnext with ⟨_, _, rfl, _⟩ | ⟨_, rfl, _⟩
    · exact hg
    · cases rules.fill? a with
      | none => exact hg
      | some value => exact hg.insert _ _

private theorem get?_of_newRecord (hnamed : rules.model.AttributesNamed)
    (h : rules.newRecord given = .ok record) (name : String) : record.get? name =
      (given.get? name).or ((rules.model.attribute? name).bind rules.fill?) := by
  obtain ⟨_, _, hcompletes⟩ := newRecord_eq_ok hnamed h
  cases ha : rules.model.attribute? name with
  | some a =>
    have hname := hnamed.name_of_attribute? ha
    subst hname
    exact hcompletes.get? a (hnamed.mem_values_iff.mpr ha)
  | none =>
    rw [Option.bind_none, Option.or_none]
    apply hcompletes.other
    rw [hnamed.values_names]
    exact Dict.get?_eq_none_iff.mp ha

private theorem filledFrom_of_newRecord (hnamed : rules.model.AttributesNamed) (hg : given.Ordered)
    (h : rules.newRecord given = .ok record) : rules.FilledFrom given record where
  ordered := by
    obtain ⟨_, _, h⟩ := bind_eq_ok_iff.mp h
    obtain ⟨_, _, h⟩ := bind_eq_ok_iff.mp h
    exact foldlM_complete_ordered hg h
  kept name value hvalue := by
    rw [get?_of_newRecord hnamed h, hvalue, Option.some_or]
  filled name hnone value := by
    simp only [get?_of_newRecord hnamed h, hnone, Option.none_or, Option.bind_eq_some_iff,
      fill?_eq_some_iff]

end RecordRules

namespace LogicalQuery

variable {rules : RecordRules} {method : Method} {request : Request} {normalized : Normalized}

/-- The query of a call that creates records, once its metadata is read. -/
def creating (rules : RecordRules) (method : Method) (callMeta : Meta) (records : List Record) :
    LogicalQuery :=
  { method, identity := rules.model.identity, newRecords := records, callMeta }

private theorem normalize_single_eq_ok_iff {value : Json} :
    normalize rules .create (request.single value) = .ok normalized ↔
      ∃ callMeta, Meta.ofJson request.callMeta = .ok callMeta ∧
        ∃ record, rules.TakesAs value record ∧
          normalized = .ready (creating rules .create callMeta [record]) := by
  simp only [normalize, bind_eq_ok_iff, mapError_eq_ok_iff]
  refine exists_congr fun callMeta => and_congr_right fun _ => ?_
  cases value with
  | obj given =>
    simp only [normalizeCreate, Request.single, bind_eq_ok_iff, mapError_eq_ok_iff]
    constructor
    · rintro ⟨record, hrecord, h⟩
      exact ⟨record, ⟨given, rfl, hrecord⟩, (Except.ok.inj h).symm⟩
    · rintro ⟨record, ⟨_, hvalue, hrecord⟩, rfl⟩
      cases hvalue
      exact ⟨record, hrecord, rfl⟩
  | null | bool | num | str | arr =>
    constructor
    · intro h
      cases h
    · rintro ⟨record, ⟨_, hvalue, _⟩, _⟩
      cases hvalue

private theorem normalize_batch_eq_ok_iff (hm : method.takesRecordBatch = true) {values : List Json}
    (hvalues : request.newRecords = some (.arr values)) (hne : values ≠ []) :
    normalize rules method request = .ok normalized ↔
      ∃ callMeta, Meta.ofJson request.callMeta = .ok callMeta ∧
        ∃ records, List.Forall₂ rules.TakesAs values records ∧
          normalized = .ready (creating rules method callMeta records) := by
  have hbatch (query : LogicalQuery) : normalizeBatch rules query request = (do
      let records ← (rules.newRecords values).mapError recordsFault
      .ok (.ready { query with newRecords := records })) := by
    unfold normalizeBatch
    rw [hvalues]
    cases values with
    | nil => exact absurd rfl hne
    | cons => rfl
  simp only [normalize, bind_eq_ok_iff, mapError_eq_ok_iff]
  refine exists_congr fun callMeta => and_congr_right fun _ => ?_
  cases method with
  | createEach | normalizeEach =>
    simp only [hbatch, bind_eq_ok_iff, mapError_eq_ok_iff, RecordRules.newRecords_eq_ok_iff]
    refine exists_congr fun records => and_congr_right fun _ => ?_
    exact ⟨fun h => (Except.ok.inj h).symm, fun h => congrArg Except.ok h.symm⟩
  | create | find | findOne | count | update | destroy | replaceCollection => cases hm

/-- A batch is taken if and only if each of its values is when it is the record of a call of its
own, and its records are those of these calls, in order. -/
structure BatchAsSingles (rules : RecordRules) (method : Method) (request : Request)
    (values : List Json) : Prop where
  accepted_iff : (∃ normalized, normalize rules method request = .ok normalized) ↔
    ∀ value ∈ values, ∃ normalized,
      normalize rules .create (request.single value) = .ok normalized
  records (normalized : Normalized) (h : normalize rules method request = .ok normalized) :
    ∃ query, normalized = .ready query ∧ List.Forall₂ (fun value record =>
      ∃ single, normalize rules .create (request.single value) = .ok (.ready single) ∧
        single.newRecords = [record]) values query.newRecords

private theorem batchAsSingles (hm : method.takesRecordBatch = true) {values : List Json}
    (hvalues : request.newRecords = some (.arr values)) (hne : values ≠ []) :
    BatchAsSingles rules method request values := by
  constructor
  all_goals
    simp only [normalize_batch_eq_ok_iff hm hvalues hne, normalize_single_eq_ok_iff]
  · constructor
    · rintro ⟨_, callMeta, hmeta, records, hrecords, rfl⟩ value hvalue
      obtain ⟨record, _, hrecord⟩ := exists_mem_of_forall₂ hrecords.flip hvalue
      exact ⟨_, callMeta, hmeta, record, hrecord, rfl⟩
    · intro hsingles
      -- All calls have the same metadata, so what one of them reads is what the batch reads.
      obtain ⟨first, hfirst⟩ := List.exists_mem_of_ne_nil values hne
      obtain ⟨_, callMeta, hmeta, _⟩ := hsingles first hfirst
      have htaken : ∀ value ∈ values, ∃ record, rules.TakesAs value record := by
        intro value hvalue
        obtain ⟨_, _, _, record, hrecord, _⟩ := hsingles value hvalue
        exact ⟨record, hrecord⟩
      obtain ⟨records, hrecords⟩ := exists_forall₂_iff.mpr htaken
      exact ⟨_, callMeta, hmeta, records, hrecords, rfl⟩
  · rintro _ ⟨callMeta, hmeta, records, hrecords, rfl⟩
    refine ⟨_, rfl, hrecords.imp ?_⟩
    intro value record hrecord
    exact ⟨_, ⟨callMeta, hmeta, record, hrecord, rfl⟩, rfl⟩

/-- Which new records a model takes, and as what, alone and in a batch. -/
theorem newRecord_accepts_iff (datastores : List String) (d : Definition) (model : Model)
    (hd : d.attributes.Ordered) (h : d.resolve datastores = .ok model) (schema : Schema)
    (strict : Bool) (now : Instant) :
    let rules : RecordRules := ⟨model, schema, strict, now⟩
    (∀ given : Record, given.Ordered →
      ((∃ record, rules.newRecord given = .ok record) ↔ rules.Accepts given) ∧
        ∀ record, rules.newRecord given = .ok record → rules.FilledFrom given record) ∧
    ∀ (method : Method) (request : Request) (values : List Json),
      method.takesRecordBatch = true → request.newRecords = some (.arr values) → values ≠ [] →
      BatchAsSingles rules method request values := by
  intro rules
  have hnamed : rules.model.AttributesNamed :=
    (Definition.resolvesTo_of_resolve h).attributesNamed hd
  refine ⟨fun given hg => ⟨?_, ?_⟩, ?_⟩
  · exact RecordRules.exists_newRecord_iff_accepts hnamed hg
  · exact fun record hrecord => RecordRules.filledFrom_of_newRecord hnamed hg hrecord
  · exact fun method request values hm hvalues hne => batchAsSingles hm hvalues hne

private def playful : Definition where
  identity := some "pet"
  attributes := ⟨[
    ("age", .obj ⟨[("defaultsTo", Json.nat 1), ("type", .str "number")]⟩),
    ("born", .obj ⟨[("autoCreatedAt", .bool true), ("type", .str "number")]⟩),
    ("name", .obj ⟨[("required", .bool true), ("type", .str "string")]⟩),
    ("seen", .obj ⟨[("autoUpdatedAt", .bool true), ("type", .str "string")]⟩),
    ("toys", .obj ⟨[("collection", .str "toy")]⟩)]⟩

private def playfulRex : Record := ⟨[("name", .str "Rex")]⟩

private def playfulTom : Record := ⟨[("age", Json.nat 3), ("name", .str "Tom")]⟩

/-- A moment of the leap day of the year 2000. -/
private def leapDay : Instant := ⟨951827696, 789000000⟩

/-- A pet that is given by its name gets an age, the moment in both forms and a list of toys; as
one of a batch of two it is taken as it is alone. -/
theorem newRecord_accepts_iff_playful :
    ∃ model, playful.resolve ["default"] = .ok model ∧
      RecordRules.Accepts ⟨model, .empty, true, leapDay⟩ playfulRex ∧
      RecordRules.FilledFrom ⟨model, .empty, true, leapDay⟩ playfulRex
        ⟨[("age", Json.nat 1), ("born", Json.int 951827696789), ("name", .str "Rex"),
          ("seen", .str "2000-02-29T12:34:56.789+00:00"), ("toys", .arr [])]⟩ ∧
      ∀ value ∈ [Json.obj playfulRex, .obj playfulTom], ∃ normalized,
        normalize ⟨model, .empty, true, leapDay⟩ .create (Request.single {} value) =
          .ok normalized := by
  refine ⟨_, rfl, ?_⟩
  have htheorem := newRecord_accepts_iff ["default"] playful _ (by decide) rfl .empty true leapDay
  obtain ⟨haccepts, hfilled⟩ := htheorem.1 playfulRex (by decide)
  refine ⟨haccepts.mp ⟨_, rfl⟩, hfilled _ rfl, ?_⟩
  exact (htheorem.2 .createEach { newRecords := some (.arr [.obj playfulRex, .obj playfulTom]) } _
    rfl rfl (List.cons_ne_nil _ _)).accepted_iff.mp ⟨_, rfl⟩

end LogicalQuery

end GraphRecords
