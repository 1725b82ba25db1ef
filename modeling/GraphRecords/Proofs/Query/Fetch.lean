import GraphRecords.Hook.Before
import GraphRecords.Proofs.Dict.Entries
import GraphRecords.Proofs.Hook.Fanout
import GraphRecords.Proofs.Query.Creation

/-!
# Queries with and without fetch

The same request with `fetch` on and off comes to queries that differ in nothing else. Where
members have to be stored the query sent asks for the records either way, and only the flag of the
caller still tells the two apart.
-/

namespace GraphRecords

open Outcome

namespace Meta

/-- The metadata of a request with `fetch` set. Null counts as absent, and what is no dictionary
has no place for it. -/
def givenWithFetch (fetch : Bool) : Option Json → Option Json
  | none | some .null => some (.obj (Dict.empty.insert fetchKey (.bool fetch)))
  | some (.obj fields) => some (.obj (fields.insert fetchKey (.bool fetch)))
  | some value => some value

/-- Metadata with `fetch` on, and the same with `fetch` off. -/
structure FetchApart (on off : Meta) : Prop where
  on_eq : on = off.withFetch
  off_fetch : off.fetch = false

private theorem ofFields_alike (fields : Record) :
    Alike FetchApart (ofFields (fields.insert fetchKey (.bool true)))
      (ofFields (fields.insert fetchKey (.bool false))) := by
  have hcheck : checkFlag (fields.insert fetchKey (.bool true)) =
      checkFlag (fields.insert fetchKey (.bool false)) := by
    funext key
    rw [checkFlag, checkFlag, Dict.get?_insert, Dict.get?_insert]
    by_cases hkey : fetchKey = key
    · rw [if_pos hkey, if_pos hkey]
    · rw [if_neg hkey, if_neg hkey]
  have hfetch (fetch : Bool) : isOn (fields.insert fetchKey (.bool fetch)) fetchKey = fetch := by
    rw [isOn, Dict.get?_insert_self]
    rfl
  have hskip (fetch : Bool) :
      isOn (fields.insert fetchKey (.bool fetch)) skipHooksKey = isOn fields skipHooksKey := by
    rw [isOn, Dict.get?_insert, if_neg (by decide), isOn]
  unfold ofFields
  rw [hcheck]
  refine .bind_of_eq _ fun _ _ => .ok ⟨?_, hfetch false⟩
  simp only [withFetch, hfetch, hskip, Dict.erase_insert_self]

private theorem ofJson_alike (given : Option Json) :
    Alike FetchApart (ofJson (givenWithFetch true given))
      (ofJson (givenWithFetch false given)) := by
  cases given with
  | none => exact ofFields_alike .empty
  | some value =>
    cases value with
    | null => exact ofFields_alike .empty
    | obj fields => exact ofFields_alike fields
    | bool | num | str | arr => exact .error _

end Meta

/-- The request with `fetch` set in its metadata. -/
def Request.withFetch (request : Request) (fetch : Bool) : Request :=
  { request with callMeta := Meta.givenWithFetch fetch request.callMeta }

/-- The query with `fetch` on. -/
def LogicalQuery.fetching (query : LogicalQuery) : LogicalQuery :=
  { query with callMeta := query.callMeta.withFetch }

/-- Two logical queries of a method, with `fetch` on and off. The method tells how many records
they create. -/
structure LogicalQuery.FetchApart (method : Method) (on off : LogicalQuery) : Prop where
  on_eq : on = off.fetching
  off_fetch : off.callMeta.fetch = false
  method_eq : off.method = method
  single (h : method = .create) : off.newRecords.length = 1
  noRecords (h : method.createsRecords = false) : off.newRecords = []

/-- Two normalized requests of a method, with `fetch` on and off. What stores members is no call
and never has nothing to do. -/
inductive Normalized.FetchApart (method : Method) : Normalized → Normalized → Prop
  | ready {on off : LogicalQuery} (h : LogicalQuery.FetchApart method on off) :
      FetchApart method (.ready on) (.ready off)
  | noop (hmethod : method ≠ .replaceCollection) (reason : NoopReason) :
      FetchApart method (.noop reason (noopResult method true))
        (.noop reason (noopResult method false))

namespace LogicalQuery

variable {rules : RecordRules} {method : Method} {on off : LogicalQuery}

private theorem normalizeCreate_alike (off : LogicalQuery) (hmethod : off.method = .create)
    (hfetch : off.callMeta.fetch = false) (request : Request) :
    Alike (Normalized.FetchApart .create)
      (normalizeCreate rules off.fetching (request.withFetch true))
      (normalizeCreate rules off (request.withFetch false)) := by
  simp only [normalizeCreate, Request.withFetch]
  cases request.newRecord with
  | none => exact .error _
  | some given =>
    cases given with
    | obj record =>
      refine .bind_of_eq _ fun _ _ => .ok (.ready ⟨rfl, hfetch, hmethod, fun _ => rfl, ?_⟩)
      intro hno
      cases hno
    | null | bool | num | str | arr => exact .error _

private theorem normalizeBatch_alike (off : LogicalQuery) (hmethod : off.method = method)
    (hcreates : method.createsRecords = true) (hbatch : method ≠ .create)
    (hfetch : off.callMeta.fetch = false) (request : Request) :
    Alike (Normalized.FetchApart method)
      (normalizeBatch rules off.fetching (request.withFetch true))
      (normalizeBatch rules off (request.withFetch false)) := by
  simp only [normalizeBatch, Request.withFetch]
  split
  · subst hmethod
    rw [hfetch]
    refine .ok (.noop ?_ .noRecords)
    intro hreplace
    rw [hreplace] at hcreates
    cases hcreates
  · refine .bind_of_eq _ fun _ _ => .ok (.ready ⟨rfl, hfetch, hmethod, ?_, ?_⟩)
    · intro hcreate
      exact absurd hcreate hbatch
    · intro hno
      cases hcreates.symm.trans hno
  · exact .error _

private theorem selecting_apart (hmethod : method ≠ .replaceCollection)
    (h : FetchApart method off.fetching off) (model : Model) (criteria : Criteria) :
    Normalized.FetchApart method (selecting model off.fetching criteria)
      (selecting model off criteria) := by
  obtain ⟨_, hfetch, rfl, hsingle, hnone⟩ := h
  unfold selecting
  split
  · rw [hfetch]
    exact .noop hmethod .neverMatches
  · exact .ready ⟨rfl, hfetch, rfl, hsingle, hnone⟩

private theorem normalizeSelection_alike (hmethod : method ≠ .replaceCollection)
    (h : FetchApart method off.fetching off) (request : Request) :
    Alike (Normalized.FetchApart method)
      (normalizeSelection rules off.fetching (request.withFetch true))
      (normalizeSelection rules off (request.withFetch false)) :=
  .bind_of_eq (readCriteria rules.model off.method request) fun criteria _ =>
    .ok (selecting_apart hmethod h rules.model criteria)

private theorem normalizeUpdate_alike (hmethod : method ≠ .replaceCollection)
    (h : FetchApart method off.fetching off) (request : Request) :
    Alike (Normalized.FetchApart method)
      (normalizeUpdate rules off.fetching (request.withFetch true))
      (normalizeUpdate rules off (request.withFetch false)) := by
  refine .bind_of_eq (readCriteria rules.model off.method request) fun criteria _ => ?_
  refine .bind_of_eq ((rules.valuesToSet request.valuesToSet).mapError _) fun values _ => .ok ?_
  have hvalues : FetchApart method { off with valuesToSet := some values }.fetching
      { off with valuesToSet := some values } :=
    ⟨rfl, h.off_fetch, h.method_eq, h.single, h.noRecords⟩
  exact selecting_apart hmethod hvalues rules.model criteria

theorem normalize_alike (rules : RecordRules) (method : Method) (request : Request) :
    Alike (Normalized.FetchApart method) (normalize rules method (request.withFetch true))
      (normalize rules method (request.withFetch false)) := by
  refine .bind ((Meta.ofJson_alike request.callMeta).mapError _) ?_
  rintro _ callMeta ⟨rfl, hfetch⟩
  have hplain (hmethod : method ≠ .create) : FetchApart method
      (fetching { method, identity := rules.model.identity, callMeta })
      { method, identity := rules.model.identity, callMeta } :=
    ⟨rfl, hfetch, rfl, fun hcreate => absurd hcreate hmethod, fun _ => rfl⟩
  cases method with
  | create =>
    exact normalizeCreate_alike { method := .create, identity := rules.model.identity, callMeta }
      rfl hfetch request
  | createEach =>
    exact normalizeBatch_alike
      { method := .createEach, identity := rules.model.identity, callMeta } rfl rfl nofun hfetch
      request
  | normalizeEach =>
    exact normalizeBatch_alike
      { method := .normalizeEach, identity := rules.model.identity, callMeta } rfl rfl nofun hfetch
      request
  | find | findOne | count | destroy =>
    exact normalizeSelection_alike (by decide) (hplain nofun) request
  | update => exact normalizeUpdate_alike (by decide) (hplain nofun) request
  | replaceCollection => exact .error _

private theorem runBeforeCreate_fetching (hook : Hook) (bound : Nat) (query : LogicalQuery) :
    runBeforeCreate hook bound query.fetching =
      ((runBeforeCreate hook bound query).1.map fetching,
        (runBeforeCreate hook bound query).2) := by
  simp only [runBeforeCreate, fetching]
  cases (Fanout.run hook bound query.newRecords).outcome <;> rfl

private theorem runBeforeUpdate_fetching (hook : Hook) (query : LogicalQuery) :
    runBeforeUpdate hook query.fetching =
      ((runBeforeUpdate hook query).1.map fetching, (runBeforeUpdate hook query).2) := by
  obtain ⟨method, identity, newRecords, criteria, valuesToSet, callMeta⟩ := query
  simp only [runBeforeUpdate, fetching]
  cases valuesToSet with
  | none => rfl
  | some values =>
    dsimp only
    cases (hook values).result <;> rfl

private theorem runBeforeDestroy_fetching (hook : Hook) (query : LogicalQuery) :
    runBeforeDestroy hook query.fetching =
      ((runBeforeDestroy hook query).1.map fetching, (runBeforeDestroy hook query).2) := by
  obtain ⟨method, identity, newRecords, criteria, valuesToSet, callMeta⟩ := query
  simp only [runBeforeDestroy, fetching]
  cases criteria with
  | none => rfl
  | some criteria =>
    dsimp only
    cases (hook criteria.filter).result <;> rfl

private theorem runBefore_fetching (callbacks : Callbacks) (bound : Nat) (query : LogicalQuery) :
    query.fetching.runBefore callbacks bound =
      ((query.runBefore callbacks bound).1.map fetching, (query.runBefore callbacks bound).2) := by
  have hhook : query.fetching.hook? callbacks = query.hook? callbacks := rfl
  unfold runBefore
  rw [hhook]
  rcases query.hook? callbacks with _ | ⟨kind, hook⟩
  · rfl
  · cases kind with
    | beforeCreate => exact runBeforeCreate_fetching hook bound query
    | beforeUpdate => exact runBeforeUpdate_fetching hook query
    | beforeDestroy => exact runBeforeDestroy_fetching hook query

private theorem runBefore_keeps {callbacks : Callbacks} {bound : Nat} {query hooked : LogicalQuery}
    (h : (query.runBefore callbacks bound).1 = .ok hooked) :
    hooked.method = query.method ∧ hooked.callMeta = query.callMeta ∧
      hooked.newRecords.length = query.newRecords.length := by
  unfold runBefore at h
  split at h
  · cases h
    exact ⟨rfl, rfl, rfl⟩
  · simp only [runBeforeCreate] at h
    split at h
    · rename_i records houtcome
      cases h
      exact ⟨rfl, rfl, Fanout.length_of_outcome houtcome⟩
    · cases h
  · unfold runBeforeUpdate at h
    split at h
    · cases h
      exact ⟨rfl, rfl, rfl⟩
    · split at h
      · cases h
        exact ⟨rfl, rfl, rfl⟩
      · cases h
  · unfold runBeforeDestroy at h
    split at h
    · cases h
      exact ⟨rfl, rfl, rfl⟩
    · split at h
      · cases h
        exact ⟨rfl, rfl, rfl⟩
      · cases h

theorem runBefore_alike (h : FetchApart method on off) (callbacks : Callbacks) (bound : Nat) :
    (on.runBefore callbacks bound).2 = (off.runBefore callbacks bound).2 ∧
      Alike (FetchApart method) (on.runBefore callbacks bound).1
        (off.runBefore callbacks bound).1 := by
  obtain ⟨rfl, hfetch, rfl, hsingle, hnone⟩ := h
  rw [runBefore_fetching]
  refine ⟨rfl, ?_⟩
  cases hooked : (off.runBefore callbacks bound).1 with
  | error error => exact .error error
  | ok query =>
    obtain ⟨hmethod, hmeta, hlength⟩ := runBefore_keeps hooked
    refine .ok ⟨rfl, hmeta ▸ hfetch, hmethod, ?_, ?_⟩
    · intro hcreate
      exact hlength.trans (hsingle hcreate)
    · intro hno
      rw [hnone hno] at hlength
      exact List.length_eq_zero_iff.mp hlength

end LogicalQuery

/-- The query with `fetch` on, as asked for by the caller. -/
def PhysicalQuery.fetching (query : PhysicalQuery) : PhysicalQuery :=
  { query with callMeta := query.callMeta.withFetch, fetchRequested := true }

/-- Two physical queries of a method, with `fetch` on and off. Both ask for the records where
members have to be stored, which only queries with new records have. -/
structure PhysicalQuery.FetchApart (method : Method) (on off : PhysicalQuery) : Prop where
  on_eq : on = off.fetching
  off_requested : off.fetchRequested = false
  off_fetch (h : off.hasResets = false) : off.callMeta.fetch = false
  method_eq : off.method = method
  creates (h : method.createsRecords = true) : off.Creates method
  noResets (h : method.createsRecords = false) : off.hasResets = false

namespace PhysicalQuery

private theorem ofLogical_alike {method : Method} {on off : LogicalQuery}
    (h : LogicalQuery.FetchApart method on off) (model : Model) :
    Alike (FetchApart method) (ofLogical model on) (ofLogical model off) := by
  obtain ⟨rfl, hfetch, rfl, hsingle, hnone⟩ := h
  refine .bind_of_eq _ fun splits hsplits => .ok ?_
  refine ⟨?_, hfetch, ?_, rfl, ?_, ?_⟩
  · simp only [fetching, LogicalQuery.fetching]
    split <;> rfl
  · -- Without members to store nothing has turned `fetch` on.
    intro hresets
    change (splits.map (·.reset)).any (!·.isEmpty) = false at hresets
    simp only [hresets, Bool.false_eq_true, if_false, hfetch]
  · intro _
    exact ofLogical_creates (bind_eq_ok_iff.mpr ⟨splits, hsplits, rfl⟩) hsingle
  · intro hno
    have hsplit := mapM_eq_ok_iff.mp (mapError_eq_ok_iff.mp hsplits)
    rw [LogicalQuery.fetching, hnone hno] at hsplit
    cases hsplit
    rfl

theorem compile_alike {method : Method} {on off : LogicalQuery}
    (h : LogicalQuery.FetchApart method on off) (schema : Schema) (identity : String) :
    Alike (FetchApart method) (compile schema identity on) (compile schema identity off) := by
  unfold compile
  cases schema.get? identity with
  | none => exact .error _
  | some model => exact ofLogical_alike h model

end PhysicalQuery

end GraphRecords
