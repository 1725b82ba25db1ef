import GraphRecords.Adapter.Delivery
import GraphRecords.Adapter.Recorded
import GraphRecords.Proofs.Outcome

/-!
# The queries of a delivery

A delivery sends its query once every method that it takes is known to be supported. If the query
succeeds it goes on with the queries that store members, in record order, up to the first that
fails. It fails with an error of the adapter if and only if it has sent anything.
-/

namespace GraphRecords

/-- The error was met at the adapter. -/
def OrmError.isAdapter : OrmError → Bool
  | adapter .. => true
  | _ => false

theorem OrmError.isAdapter_withContext (error : OrmError) (context : CallContext) :
    (error.withContext context).isAdapter = error.isAdapter := by
  cases error with
  | usage _ own => cases own <;> rfl
  | lifecycle _ _ own => cases own <;> rfl
  | adapter => rfl
  | configuration => rfl

namespace Delivery

open Outcome

variable {σ : Type} {d : Delivery σ} {query : PhysicalQuery}

/-- The delivery through an adapter that keeps the queries that it receives. -/
def recorded (d : Delivery σ) : Delivery (Recorded σ) where
  adapter := d.adapter.recorded
  datastore := d.datastore
  model := d.model
  context := d.context

/-- What members of one record are stored as. -/
def memberColumns (d : Delivery σ) (reset : CollectionReset) : Record :=
  (reset.map Json.arr).mapKeys d.model.columns.column

/-- The queries that store the members of records that have any, in record order. -/
def memberQueries (d : Delivery σ) (query : PhysicalQuery)
    (pairs : List (Record × CollectionReset)) : List PhysicalQuery :=
  pairs.filterMap fun pair =>
    if pair.2.isEmpty then none
    else (Store.keyOf? query.primaryKey pair.1).map (d.replaceQuery query · pair.2)

/-- What is sent once the query is answered: the queries that store members, from the first on and,
if the delivery succeeds, all of them, one for each record that gives members. -/
structure Follows (d : Delivery σ) (query : PhysicalQuery) (pairs : List (Record × CollectionReset))
    (resets : List CollectionReset) (succeeds : Bool) (sent : List PhysicalQuery) : Prop where
  start : sent <+: d.memberQueries query pairs
  all (h : succeeds = true) : sent = d.memberQueries query pairs
  every (h : succeeds = true) : sent.map (·.valuesToSet) =
    (resets.filter (!·.isEmpty)).map (some ∘ d.memberColumns)

section Follows

variable {pairs : List (Record × CollectionReset)} {resets : List CollectionReset}
variable {succeeds : Bool} {sent : List PhysicalQuery}

theorem Follows.failed (pairs : List (Record × CollectionReset)) (resets : List CollectionReset) :
    d.Follows query pairs resets false [] := ⟨List.nil_prefix, nofun, nofun⟩

theorem Follows.skip {pair : Record × CollectionReset} (h : pair.2.isEmpty = true)
    (hrest : d.Follows query pairs resets succeeds sent) :
    d.Follows query (pair :: pairs) (pair.2 :: resets) succeeds sent := by
  have hqueries : d.memberQueries query (pair :: pairs) = d.memberQueries query pairs := by
    simp only [memberQueries, List.filterMap_cons, h, if_true]
  refine ⟨hqueries ▸ hrest.start, fun hs => hqueries ▸ hrest.all hs, fun hs => ?_⟩
  rw [hrest.every hs, List.filter_cons_of_neg (by simp [h])]

private theorem Follows.send {record : Record} {reset : CollectionReset} (h : reset.isEmpty = false)
    {key : Json} (hkey : Store.keyOf? query.primaryKey record = some key)
    (hrest : d.Follows query pairs resets succeeds sent) :
    d.Follows query ((record, reset) :: pairs) (reset :: resets) succeeds
      (d.replaceQuery query key reset :: sent) := by
  have hqueries : d.memberQueries query ((record, reset) :: pairs) =
      d.replaceQuery query key reset :: d.memberQueries query pairs := by
    simp only [memberQueries, List.filterMap_cons, h, hkey, Bool.false_eq_true, if_false,
      Option.map_some]
  refine ⟨?_, fun hs => ?_, fun hs => ?_⟩
  · rw [hqueries]
    exact List.cons_prefix_cons.mpr ⟨rfl, hrest.start⟩
  · rw [hqueries, ← hrest.all hs]
  · rw [List.map_cons, List.filter_cons_of_pos (by simp [h]), List.map_cons, hrest.every hs]
    rfl

theorem Follows.none (records : List Record) (h : query.hasResets = false) :
    d.Follows query (records.zip query.resets) query.resets true [] := by
  have hempty : ∀ reset ∈ query.resets, reset.isEmpty = true := by
    simpa [PhysicalQuery.hasResets] using h
  have hqueries : d.memberQueries query (records.zip query.resets) = [] := by
    refine List.filterMap_eq_nil_iff.mpr fun pair hm => ?_
    rw [if_pos (hempty pair.2 (List.of_mem_zip hm).2)]
  have hresets : query.resets.filter (!·.isEmpty) = [] :=
    List.filter_eq_nil_iff.mpr fun reset hm => by simp [hempty reset hm]
  exact ⟨List.nil_prefix, fun _ => hqueries.symm, fun _ => by rw [hresets]; rfl⟩

end Follows

private theorem execute_recorded (query : PhysicalQuery) (seen : List (String × PhysicalQuery))
    (state : σ) : d.recorded.execute query ⟨seen, state⟩ =
      ((d.execute query state).1,
        ⟨seen ++ [(d.datastore.name, query)], (d.execute query state).2⟩) := rfl

private theorem storeMembers_recorded (query : PhysicalQuery)
    (pairs : List (Record × CollectionReset)) (seen : List (String × PhysicalQuery)) (state : σ) :
    ∃ sent, d.recorded.storeMembers query pairs ⟨seen, state⟩ =
        ((d.storeMembers query pairs state).1,
          ⟨seen ++ sent.map (d.datastore.name, ·), (d.storeMembers query pairs state).2⟩) ∧
      d.Follows query pairs (pairs.map Prod.snd)
        (d.storeMembers query pairs state).1.isOk sent := by
  induction pairs generalizing seen state with
  | nil =>
    exact ⟨[], by simp [storeMembers], List.prefix_rfl, fun _ => rfl, fun _ => rfl⟩
  | cons pair rest ih =>
    obtain ⟨record, reset⟩ := pair
    rw [storeMembers, storeMembers]
    cases hreset : reset.isEmpty with
    | true =>
      obtain ⟨sent, hrun, hfollows⟩ := ih seen state
      exact ⟨sent, hrun, hfollows.skip hreset⟩
    | false =>
      cases hkey : Store.keyOf? query.primaryKey record with
      | none => exact ⟨[], by simp [recorded, fault, Adapter.recorded], .failed _ _⟩
      | some key =>
        have hexecute := execute_recorded (d := d) (d.replaceQuery query key reset) seen state
        have hquery :
            d.recorded.replaceQuery query key reset = d.replaceQuery query key reset := rfl
        rcases hrun : d.execute (d.replaceQuery query key reset) state with ⟨_ | _, after⟩
        · rw [hrun] at hexecute
          simp only [Bool.false_eq_true, if_false, hquery, hexecute, hrun]
          exact ⟨[d.replaceQuery query key reset], rfl, (Follows.failed _ _).send hreset hkey⟩
        · rw [hrun] at hexecute
          simp only [Bool.false_eq_true, if_false, hquery, hexecute, hrun]
          obtain ⟨sent, hrest, hfollows⟩ :=
            ih (seen ++ [(d.datastore.name, d.replaceQuery query key reset)]) after
          refine ⟨d.replaceQuery query key reset :: sent, ?_, hfollows.send hreset hkey⟩
          rw [hrest, List.append_assoc, List.map_cons, List.singleton_append]

private theorem applyResets_recorded (query : PhysicalQuery) (answer : Answer)
    (seen : List (String × PhysicalQuery)) (state : σ) :
    ∃ sent, d.recorded.applyResets query answer ⟨seen, state⟩ =
        ((d.applyResets query answer state).1,
          ⟨seen ++ sent.map (d.datastore.name, ·), (d.applyResets query answer state).2⟩) ∧
      d.Follows query ((persisted answer).zip query.resets) query.resets
        (d.applyResets query answer state).1.isOk sent := by
  unfold applyResets
  cases hresets : query.hasResets with
  | false => exact ⟨[], by simp, .none _ hresets⟩
  | true =>
    simp only [Bool.not_true, Bool.false_eq_true, if_false]
    split
    · rename_i hlength
      have hpairs : ((persisted answer).zip query.resets).map Prod.snd = query.resets :=
        List.map_snd_zip (Nat.le_of_eq hlength.symm)
      have hstore := storeMembers_recorded (d := d) query ((persisted answer).zip query.resets)
        seen state
      rwa [hpairs] at hstore
    · exact ⟨[], by simp [recorded, fault, Adapter.recorded], .failed _ _⟩

private theorem execute_failsOnly (query : PhysicalQuery) (state : σ) :
    FailsOnly (·.isAdapter = true) (d.execute query state).1 :=
  failsOnly_mapError (f := d.fault) (fun _ => rfl) _

private theorem storeMembers_failsOnly (query : PhysicalQuery)
    (pairs : List (Record × CollectionReset))
    (state : σ) : FailsOnly (·.isAdapter = true) (d.storeMembers query pairs state).1 := by
  induction pairs generalizing state with
  | nil => exact failsOnly_ok ()
  | cons pair rest ih =>
    obtain ⟨record, reset⟩ := pair
    rw [storeMembers]
    split
    · exact ih state
    · split
      · exact failsOnly_error rfl
      · rename_i key _
        have hexecute := execute_failsOnly (d := d) (d.replaceQuery query key reset) state
        rcases hrun : d.execute (d.replaceQuery query key reset) state with ⟨_ | _, after⟩
        · rw [hrun] at hexecute
          exact failsOnly_error (hexecute _ rfl)
        · exact ih after

private theorem applyResets_failsOnly (query : PhysicalQuery) (answer : Answer) (state : σ) :
    FailsOnly (·.isAdapter = true) (d.applyResets query answer state).1 := by
  unfold applyResets
  split
  · exact failsOnly_ok ()
  · dsimp only
    split
    · exact storeMembers_failsOnly query _ state
    · exact failsOnly_error rfl

theorem check_cases (d : Delivery σ) (query : PhysicalQuery) :
    d.check query = .ok () ∨ ∃ method, d.check query =
      .error (.configuration (.unsupportedMethod d.adapter.identity method)) := by
  have hsupported (method : Method) : d.ensureSupported method = .ok () ∨
      d.ensureSupported method =
        .error (.configuration (.unsupportedMethod d.adapter.identity method)) := by
    unfold ensureSupported
    split
    · exact .inl rfl
    · exact .inr rfl
  unfold check
  rcases hsupported query.method with h | h
  · rw [h]
    split
    · exact (hsupported .replaceCollection).imp_right fun h => ⟨_, h⟩
    · exact .inl rfl
  · rw [h]
    exact .inr ⟨_, rfl⟩

private theorem check_failsOnly (query : PhysicalQuery) :
    FailsOnly (·.isAdapter = false) (d.check query) := by
  rcases d.check_cases query with h | ⟨method, h⟩
  · rw [h]
    exact failsOnly_ok ()
  · rw [h]
    exact failsOnly_error rfl

/-- How a delivery that settles with the result has gone, by the queries that it has sent. -/
inductive Sends (d : Delivery σ) (query : PhysicalQuery) (state : σ) :
    Except OrmError Answer → List PhysicalQuery → Prop
  | refused {error : OrmError} (h : error.isAdapter = false) : Sends d query state (.error error) []
  | failed {error : OrmError} {source : AdapterError}
      (hquery : (d.adapter.execute d.datastore query state).1 = .error source)
      (h : error.isAdapter = true) : Sends d query state (.error error) [query]
  | answered {result : Except OrmError Answer} {answer : Answer} {sent : List PhysicalQuery}
      (hquery : (d.adapter.execute d.datastore query state).1 = .ok answer)
      (h : FailsOnly (·.isAdapter = true) result)
      (hfollows : d.Follows query ((persisted answer).zip query.resets) query.resets
        result.isOk sent) : Sends d query state result (query :: sent)

/-- Keeping what is sent changes nothing about a delivery. -/
theorem run_recorded (query : PhysicalQuery) (state : σ) :
    ∃ sent, d.recorded.run query ⟨[], state⟩ =
        ((d.run query state).1, ⟨sent.map (d.datastore.name, ·), (d.run query state).2⟩) ∧
      d.Sends query state (d.run query state).1 sent := by
  have hcheck : d.recorded.check query = d.check query := rfl
  unfold run
  rw [hcheck]
  cases hc : d.check query with
  | error error => exact ⟨[], rfl, .refused (check_failsOnly query error hc)⟩
  | ok =>
    have hexecute := execute_recorded (d := d) query [] state
    have hquery : (d.execute query state).1 =
      (d.adapter.execute d.datastore query state).1.mapError d.fault := rfl
    rcases hrun : d.execute query state with ⟨error | answer, after⟩
    · rw [hrun] at hexecute hquery
      simp only [hexecute]
      obtain ⟨source, hsource⟩ := mapError_eq_error hquery.symm
      have hadapter := execute_failsOnly (d := d) query state error (by rw [hrun])
      exact ⟨[query], rfl, .failed hsource hadapter⟩
    · rw [hrun] at hexecute hquery
      simp only [hexecute]
      have hanswer := mapError_eq_ok_iff.mp hquery.symm
      obtain ⟨sent, hresets, hfollows⟩ :=
        applyResets_recorded (d := d) query answer [(d.datastore.name, query)] after
      have hadapter := applyResets_failsOnly (d := d) query answer after
      simp only [List.nil_append, hresets]
      rcases hrest : d.applyResets query answer after with ⟨error | done, last⟩
      · rw [hrest] at hfollows hadapter
        exact ⟨query :: sent, rfl,
          .answered hanswer (failsOnly_error (hadapter error rfl)) hfollows⟩
      · rw [hrest] at hfollows
        exact ⟨query :: sent, rfl, .answered hanswer (failsOnly_ok _) hfollows⟩

end Delivery

end GraphRecords
