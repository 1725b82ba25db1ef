import GraphRecords.Proofs.Delivery.Links
import GraphRecords.Proofs.Orm.Effects
import GraphRecords.Proofs.Orm.Started
import GraphRecords.Proofs.Query.Fetch

/-!
# Calls with and without fetch

With `fetch` a call settles with the records that it stored, changed or removed, and without it
with nothing. That is all the difference: the call goes through the same hooks, meets the same
errors and leaves the same store.
-/

namespace GraphRecords

open Outcome

/-- What calls of a method settle with, with `fetch` on and off. -/
def Answer.FetchApart (method : Method) (on off : Answer) : Prop :=
  if method ∈ [.create, .createEach, .normalizeEach, .update, .destroy] then
    on.isSome = true ∧ off = none
  else on = off

theorem Answer.FetchApart.map {method : Method} {on off : Answer} (h : FetchApart method on off)
    (f : Json → Json) : FetchApart method (on.map f) (off.map f) := by
  unfold FetchApart at h ⊢
  split at h
  · rename_i hm
    rw [if_pos hm, h.2]
    exact ⟨by rw [Option.isSome_map, h.1], rfl⟩
  · rename_i hm
    rw [if_neg hm, h]

private theorem noopResult_apart {method : Method} (hmethod : method ≠ .replaceCollection) :
    Answer.FetchApart method (noopResult method true) (noopResult method false) := by
  cases method with
  | replaceCollection => exact absurd rfl hmethod
  | find | findOne | count | create | createEach | normalizeEach | update | destroy =>
    simp [Answer.FetchApart, noopResult]

private theorem Store.updateClash?_congr {a b : PhysicalQuery} (hselects : a.selects = b.selects)
    (hrow : updateRow a = updateRow b) (columns : List String) (earlier rows : List Record) :
    updateClash? columns a earlier rows = updateClash? columns b earlier rows := by
  induction rows generalizing earlier with
  | nil => rfl
  | cons row rest ih => simp only [updateClash?, hselects, hrow, ih]

/-- Queries without new records do the same to a store with `fetch` on and off. -/
theorem Store.execute_alike {method : Method} {on off : PhysicalQuery}
    (h : PhysicalQuery.FetchApart method on off) (hm : method.createsRecords = false)
    (sort : RowSort) (unique : List (String × String)) (datastore : String) (store : Store) :
    (store.execute sort unique datastore on).2 = (store.execute sort unique datastore off).2 ∧
      Alike (Answer.FetchApart method) (store.execute sort unique datastore on).1
        (store.execute sort unique datastore off).1 := by
  obtain ⟨rfl, _, hfetch, rfl, _, hresets⟩ := h
  have hoff := hfetch (hresets hm)
  have hsame : off.fetching.method = off.method := rfl
  unfold execute
  rw [hsame]
  cases hmethod : off.method with
  | create | createEach | normalizeEach =>
    rw [hmethod] at hm
    cases hm
  | find => exact ⟨rfl, .ok rfl⟩
  | findOne => exact ⟨rfl, Alike.of_forall _ fun _ => rfl⟩
  | count => exact ⟨rfl, .ok rfl⟩
  | update =>
    have hselects : off.fetching.selects = off.selects := rfl
    have hclash := updateClash?_congr hselects rfl (uniqueColumns unique off.table) []
      (store.rows ⟨datastore, off.table⟩)
    simp only [update]
    rw [show off.fetching.table = off.table from rfl, hclash]
    cases updateClash? (uniqueColumns unique off.table) off []
      (store.rows ⟨datastore, off.table⟩) with
    | some column => exact ⟨rfl, .error _⟩
    | none =>
      refine ⟨rfl, .ok ⟨rfl, ?_⟩⟩
      rw [fetched, hoff]
      rfl
  | destroy =>
    refine ⟨rfl, .ok ⟨rfl, ?_⟩⟩
    change fetched off _ = none
    rw [fetched, hoff]
    rfl
  | replaceCollection => exact ⟨rfl, .ok rfl⟩

private theorem PhysicalQuery.FetchApart.on_creates {method : Method} {on off : PhysicalQuery}
    (h : FetchApart method on off) (hm : method.createsRecords = true) : on.Creates method := by
  obtain ⟨rfl, _, _, _, hcreates, _⟩ := h
  have hoff := hcreates hm
  exact ⟨hoff.method_eq, hoff.single, hoff.resets_length, fun _ => rfl⟩

private theorem Delivery.settle_apart {method : Method} {on off : PhysicalQuery}
    (h : PhysicalQuery.FetchApart method on off) (hm : method.createsRecords = true)
    {rows : List Record} (hlength : rows.length = off.newRecords.length) (model : Model) :
    Answer.FetchApart method (settle model on (Store.createdAnswer on rows))
      (settle model off (Store.createdAnswer off rows)) := by
  obtain ⟨rfl, hrequested, _, rfl, hcreates, _⟩ := h
  have hoff : settle model off (Store.createdAnswer off rows) = none := by
    rw [settle, hm, hrequested]
    rfl
  have hanswer : Store.createdAnswer off.fetching rows =
      if off.method = .create then rows.head?.map .obj else some (.arr (rows.map .obj)) := rfl
  have hon : (Store.createdAnswer off.fetching rows).isSome = true := by
    rw [hanswer]
    split
    · rename_i hcreate
      rw [(hcreates hm).single hcreate] at hlength
      obtain ⟨row, rfl⟩ := List.length_eq_one_iff.mp hlength
      rfl
    · rfl
  have hlisted : off.method ∈ [.create, .createEach, .normalizeEach, .update, .destroy] := by
    cases hmethod : off.method <;> simp_all [Method.createsRecords]
  rw [Answer.FetchApart, if_pos hlisted, hoff]
  refine ⟨?_, rfl⟩
  have hasked : off.fetching.fetchRequested = true := rfl
  simp only [settle, hasked, Bool.not_true, Bool.and_false, Bool.false_eq_true, if_false,
    Option.isSome_map, hon]

section Delivery

variable {d : Delivery Store} {sort : RowSort} {unique : List (String × String)}
variable {bound : Option Nat}
variable {method : Method} {on off : PhysicalQuery}

private theorem Delivery.run_creates_alike (hd : d.adapter = .memory sort unique bound)
    (h : PhysicalQuery.FetchApart method on off) (hm : method.createsRecords = true)
    (store : Store) :
    (d.run on store).2 = (d.run off store).2 ∧
      Alike (Answer.FetchApart method) (d.run on store).1 (d.run off store).1 := by
  have hon := h.on_creates hm
  have hoff := h.creates hm
  -- Neither the checks on the new records nor their keys depend on what is answered.
  have hsame : store.staged unique (d.tableId on) on = store.staged unique (d.tableId off) off := by
    rw [h.on_eq]
    rfl
  rcases hs : store.staged unique (d.tableId off) off with ⟨error | rows, next⟩
  · rw [run_refused hd hm hon (hsame.trans hs), run_refused hd hm hoff hs, h.on_eq]
    exact ⟨rfl, .error _⟩
  · have hlength := (Store.create_stored hs).2.1
    rw [run_stored hd hm hon (hsame.trans hs), run_stored hd hm hoff hs]
    refine ⟨?_, .ok (settle_apart h hm hlength d.model)⟩
    rw [h.on_eq]
    rfl

/-- Queries with `fetch` on and off do the same to a store. -/
theorem Delivery.run_alike (hd : d.adapter = .memory sort unique bound)
    (h : PhysicalQuery.FetchApart method on off) (store : Store) :
    (d.run on store).2 = (d.run off store).2 ∧
      Alike (Answer.FetchApart method) (d.run on store).1 (d.run off store).1 := by
  cases hm : method.createsRecords with
  | true => exact run_creates_alike hd h hm store
  | false =>
    have hoff := h.noResets hm
    have hon : on.hasResets = false := by
      rw [h.on_eq]
      exact hoff
    have hmethod : on.method = method := by
      rw [h.on_eq]
      exact h.method_eq
    obtain ⟨hstate, halike⟩ := Store.execute_alike h hm sort unique d.datastore.name store
    rw [run_of_not_hasResets hd hon, run_of_not_hasResets hd hoff]
    refine ⟨hstate, (halike.mapError d.fault).map fun a b hab => ?_⟩
    rw [settle_of_not_creates (hmethod ▸ hm), settle_of_not_creates (h.method_eq ▸ hm)]
    exact hab.map (raise d.model)

end Delivery

namespace BoundModel

variable {m : BoundModel Store} {sort : RowSort} {unique : List (String × String)}
variable {bound : Option Nat}

/-- What calls of a method come to with `fetch` on and off, before anything is sent. -/
inductive Prepared.FetchApart (method : Method) : Prepared → Prepared → Prop
  | settled {on off : Except OrmError Answer} (h : Alike (Answer.FetchApart method) on off) :
      FetchApart method (.settled on) (.settled off)
  | query {on off : PhysicalQuery} (h : PhysicalQuery.FetchApart method on off) :
      FetchApart method (.query on) (.query off)

private theorem prepare_alike (m : BoundModel Store) (method : Method) (request : Request)
    (context : CallContext) :
    (m.prepare method (request.withFetch true) context).2 =
        (m.prepare method (request.withFetch false) context).2 ∧
      Prepared.FetchApart method (m.prepare method (request.withFetch true) context).1
        (m.prepare method (request.withFetch false) context).1 := by
  have hnormalize := LogicalQuery.normalize_alike (m.rules context.madeAt) method request
  unfold prepare
  generalize LogicalQuery.normalize (m.rules context.madeAt) method (request.withFetch true) = x
    at hnormalize
  generalize LogicalQuery.normalize (m.rules context.madeAt) method (request.withFetch false) = y
    at hnormalize
  cases hnormalize with
  | error error => exact ⟨rfl, .settled (.error _)⟩
  | ok hnormalized =>
    cases hnormalized with
    | noop hmethod reason => exact ⟨rfl, .settled (.ok (noopResult_apart hmethod))⟩
    | @ready on off hready =>
      obtain ⟨hhooks, hbefore⟩ := LogicalQuery.runBefore_alike hready m.callbacks m.hookBound
      dsimp only
      rcases hon : on.runBefore m.callbacks m.hookBound with ⟨x, hooks⟩
      rcases hoff : off.runBefore m.callbacks m.hookBound with ⟨y, others⟩
      rw [hon, hoff] at hhooks hbefore
      dsimp only at hhooks hbefore
      subst hhooks
      cases hbefore with
      | error error => exact ⟨rfl, .settled (.error _)⟩
      | @ok on off hhooked =>
        have hcompile := PhysicalQuery.compile_alike hhooked m.schema m.model.identity
        dsimp only
        generalize PhysicalQuery.compile m.schema m.model.identity on = x at hcompile
        generalize PhysicalQuery.compile m.schema m.model.identity off = y at hcompile
        cases hcompile with
        | error error => exact ⟨rfl, .settled (.error _)⟩
        | ok hphysical => exact ⟨rfl, .query hphysical⟩

private theorem run_alike (hd : m.adapter = .memory sort unique bound) (method : Method)
    (request : Request) (context : CallContext) (store : Store) :
    let on := m.run method (request.withFetch true) context store
    let off := m.run method (request.withFetch false) context store
    on.state = off.state ∧ on.hooks = off.hooks ∧
      Alike (Answer.FetchApart method) on.result off.result := by
  dsimp only
  rw [run_eq_proceed, run_eq_proceed]
  obtain ⟨hhooks, hprepared⟩ := m.prepare_alike method request context
  rcases hon : m.prepare method (request.withFetch true) context with ⟨x, hooks⟩
  rcases hoff : m.prepare method (request.withFetch false) context with ⟨y, others⟩
  rw [hon, hoff] at hhooks hprepared
  dsimp only at hhooks hprepared
  subst hhooks
  cases hprepared with
  | settled h => exact ⟨rfl, rfl, h⟩
  | query h =>
    have hdelivery : (m.delivery context).adapter = .memory sort unique bound := hd
    obtain ⟨hstate, halike⟩ := Delivery.run_alike hdelivery h store
    exact ⟨hstate, rfl, halike.mapError _⟩

/-- A call with `fetch` on and the same call with `fetch` off go through the hooks alike, fail
alike and leave the same store. They differ in what they settle with: of the methods that store,
change or remove records, a value with `fetch` and none without; of the others, the same. -/
theorem run_fetch_selects_answer (setup : Setup Store) (sort : RowSort)
    (unique : List (String × String)) (bound : Option Nat)
    (hmemory : ∀ entry ∈ setup.datastores.entries, entry.2.adapter = .memory sort unique bound)
    (orm : Orm Store) (hstart : setup.start = .ok orm) (identity : String) (m : BoundModel Store)
    (hm : orm.model identity = .ok m) (method : Method) (request : Request)
    (context : CallContext) (store : Store) :
    let on := m.run method (request.withFetch true) context store
    let off := m.run method (request.withFetch false) context store
    on.state = off.state ∧ on.hooks = off.hooks ∧
      (∀ error, on.result = .error error ↔ off.result = .error error) ∧
      ∀ given other, on.result = .ok given → off.result = .ok other →
        if method ∈ [.create, .createEach, .normalizeEach, .update, .destroy] then
          given.isSome = true ∧ other = none
        else given = other := by
  have hstarted := Setup.started_of_start hstart hm
  have hd := hstarted.adapter_eq hmemory
  obtain ⟨hstate, hhooks, halike⟩ := run_alike hd method request context store
  exact ⟨hstate, hhooks, halike.eq_error_iff, fun _ _ hon hoff => halike.of_eq_ok hon hoff⟩

private def toySetup : Setup Store where
  datastores := ⟨[("default", { adapter := .memory .inserting [] none })]⟩
  definitions := [
    { identity := some "pet",
      attributes := ⟨[("toys", .obj ⟨[("collection", .str "toy")]⟩)]⟩ },
    { identity := some "toy" }]

private def petWithToy : Request where
  newRecord := some (.obj ⟨[("toys", .arr [Json.nat 7])]⟩)

private def createContext : CallContext where
  requestId := 1
  method := .create
  identity := "pet"
  datastore := "default"
  madeAt := ⟨0, 0⟩

/-- Without `fetch` nothing is told of a pet, though its key was needed to store its toy. -/
theorem run_fetch_selects_answer_with_toy :
    ∃ orm m, toySetup.start = .ok orm ∧ orm.model "pet" = .ok m ∧
      (m.run .create (petWithToy.withFetch true) createContext {}).result =
        .ok (some (.obj ⟨[("id", Json.nat 1)]⟩)) ∧
      (m.run .create (petWithToy.withFetch false) createContext {}).result = .ok none ∧
      (m.run .create (petWithToy.withFetch false) createContext {}).state.members?
        ⟨⟨"default", "pet"⟩, "1", "toys"⟩ = some [Json.nat 7] := by
  refine ⟨_, _, rfl, rfl, rfl, ?_⟩
  obtain ⟨hstate, _, herror, hanswer⟩ := run_fetch_selects_answer toySetup .inserting [] none
    (by simp [toySetup]) _ rfl "pet" _ rfl .create petWithToy createContext {}
  rw [← hstate]
  refine ⟨?_, rfl⟩
  generalize (run _ .create (petWithToy.withFetch false) createContext ({} : Store)).result =
    off at herror hanswer ⊢
  cases off with
  | error error => cases (herror error).mpr rfl
  | ok other =>
    obtain ⟨_, rfl⟩ := hanswer _ other rfl rfl
    rfl

end BoundModel

end GraphRecords
