import GraphRecords.Proofs.Outcome
import GraphRecords.Query.Physical

/-!
# Queries that create records

A create call comes down to a query with the members of each record beside it. The stored records
are asked for wherever some of them have members.
-/

namespace GraphRecords

open Outcome

/-- What an adapter is handed to store new records. -/
structure PhysicalQuery.Creates (method : Method) (query : PhysicalQuery) : Prop where
  method_eq : query.method = method
  single (h : method = .create) : query.newRecords.length = 1
  resets_length : query.resets.length = query.newRecords.length
  fetches (h : query.hasResets = true) : query.callMeta.fetch = true

/-- The records that a call is given to store. -/
def Request.given (method : Method) (request : Request) : List Record :=
  match method with
  | .create => (request.newRecord.bind Json.toObject?).toList
  | .createEach | .normalizeEach =>
      ((request.newRecords.bind Json.toArray?).getD []).filterMap Json.toObject?
  | _ => []

namespace RecordRules

variable {rules : RecordRules}

/-- The value is a record, which is taken and completed to that one. -/
def TakesAs (rules : RecordRules) (value : Json) (record : Record) : Prop :=
  ∃ given, value = .obj given ∧ rules.newRecord given = .ok record

private theorem newRecordAt_eq_ok_iff {entry : Json × Nat} {record : Record} :
    rules.newRecordAt entry = .ok record ↔ rules.TakesAs entry.1 record := by
  obtain ⟨value, position⟩ := entry
  cases value with
  | obj given =>
    constructor
    · exact fun h => ⟨given, rfl, h⟩
    · rintro ⟨_, hvalue, h⟩
      cases hvalue
      exact h
  | null | bool | num | str | arr =>
    constructor
    · nofun
    · rintro ⟨_, hvalue, _⟩
      cases hvalue

theorem newRecords_eq_ok_iff {values : List Json} {records : List Record} :
    rules.newRecords values = .ok records ↔ List.Forall₂ rules.TakesAs values records := by
  have hvalues : values = values.zipIdx.map Prod.fst := (List.zipIdx_map_fst 0 values).symm
  rw [newRecords, mapM_eq_ok_iff]
  conv_rhs => rw [hvalues]
  rw [List.forall₂_map_left_iff]
  simp only [newRecordAt_eq_ok_iff]

private theorem newRecords_eq_ok {values : List Json} {records : List Record}
    (h : rules.newRecords values = .ok records) :
    List.Forall₂ (fun given record => rules.newRecord given = .ok record)
      (values.filterMap Json.toObject?) records := by
  have hall := newRecords_eq_ok_iff.mp h
  clear h
  induction hall with
  | nil => exact .nil
  | cons hrecord _ ih =>
    obtain ⟨given, rfl, hgiven⟩ := hrecord
    exact .cons hgiven ih

end RecordRules

namespace LogicalQuery

variable {rules : RecordRules} {query ready : LogicalQuery} {request : Request}

private theorem normalizeCreate_eq_ready
    (h : normalizeCreate rules query request = .ok (.ready ready)) :
    ready.method = query.method ∧ ready.newRecords.length = 1 := by
  unfold normalizeCreate at h
  split at h
  · obtain ⟨record, _, h⟩ := bind_eq_ok_iff.mp h
    cases h
    exact ⟨rfl, rfl⟩
  · cases h

private theorem normalizeBatch_eq_ready
    (h : normalizeBatch rules query request = .ok (.ready ready)) :
    ready.method = query.method := by
  unfold normalizeBatch at h
  split at h
  · cases h
  · obtain ⟨records, _, h⟩ := bind_eq_ok_iff.mp h
    cases h
    rfl
  · cases h

theorem normalize_eq_ready {method : Method} (hm : method.createsRecords = true)
    (h : normalize rules method request = .ok (.ready ready)) :
    ready.method = method ∧ (method = .create → ready.newRecords.length = 1) := by
  obtain ⟨callMeta, _, h⟩ := bind_eq_ok_iff.mp h
  cases method with
  | create =>
    obtain ⟨hmethod, hsingle⟩ := normalizeCreate_eq_ready h
    exact ⟨hmethod, fun _ => hsingle⟩
  | createEach | normalizeEach => exact ⟨normalizeBatch_eq_ready h, nofun⟩
  | find | findOne | count | update | destroy | replaceCollection => cases hm

theorem normalize_ready_given {method : Method} (hm : method.createsRecords = true)
    (h : normalize rules method request = .ok (.ready ready)) :
    List.Forall₂ (fun given record => rules.newRecord given = .ok record) (request.given method)
      ready.newRecords := by
  obtain ⟨callMeta, _, h⟩ := bind_eq_ok_iff.mp h
  cases method with
  | create =>
    simp only [normalizeCreate] at h
    split at h
    · rename_i given hgiven
      obtain ⟨record, hrecord, h⟩ := bind_eq_ok_iff.mp h
      cases h
      rw [Request.given, hgiven]
      exact .cons (mapError_eq_ok_iff.mp hrecord) .nil
    · cases h
  | createEach | normalizeEach =>
    simp only [normalizeBatch] at h
    split at h
    · cases h
    · rename_i values _ hgiven
      obtain ⟨records, hrecords, h⟩ := bind_eq_ok_iff.mp h
      cases h
      rw [Request.given, hgiven]
      exact RecordRules.newRecords_eq_ok (mapError_eq_ok_iff.mp hrecords)
    · cases h
  | find | findOne | count | update | destroy | replaceCollection => cases hm

theorem normalize_noop_given {method : Method} (hm : method.createsRecords = true)
    {reason : NoopReason} {result : Option Json}
    (h : normalize rules method request = .ok (.noop reason result)) :
    request.given method = [] := by
  obtain ⟨callMeta, _, h⟩ := bind_eq_ok_iff.mp h
  cases method with
  | create =>
    simp only [normalizeCreate] at h
    split at h
    · obtain ⟨record, _, h⟩ := bind_eq_ok_iff.mp h
      cases h
    · cases h
  | createEach | normalizeEach =>
    simp only [normalizeBatch] at h
    split at h
    · rename_i hgiven
      rw [Request.given, hgiven]
      rfl
    · obtain ⟨records, _, h⟩ := bind_eq_ok_iff.mp h
      cases h
    · cases h
  | find | findOne | count | update | destroy | replaceCollection => cases hm

end LogicalQuery

namespace PhysicalQuery

theorem ofLogical_creates {model : Model} {query : LogicalQuery} {physical : PhysicalQuery}
    (h : ofLogical model query = .ok physical)
    (hs : query.method = .create → query.newRecords.length = 1) :
    physical.Creates query.method := by
  obtain ⟨splits, hsplits, h⟩ := bind_eq_ok_iff.mp h
  have hlength := (mapM_eq_ok_iff.mp (mapError_eq_ok_iff.mp hsplits)).length_eq
  cases h
  refine ⟨rfl, ?_, ?_, ?_⟩
  · intro hm
    rw [List.length_map, ← hlength, hs hm]
  · rw [List.length_map, List.length_map]
  · intro hr
    change (splits.map (·.reset)).any (!·.isEmpty) = true at hr
    simp only [hr, if_true, Meta.withFetch]

theorem compile_creates {schema : Schema} {identity : String} {query : LogicalQuery}
    {physical : PhysicalQuery} (h : compile schema identity query = .ok physical)
    (hs : query.method = .create → query.newRecords.length = 1) :
    physical.Creates query.method := by
  unfold compile at h
  split at h
  · exact ofLogical_creates h hs
  · cases h

end PhysicalQuery

end GraphRecords
