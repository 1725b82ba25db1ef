import GraphRecords.Proofs.Delivery.Sequence

/-!
# Failures of a delivery

An adapter that raises an error ends the delivery, which then fails with that very error put in
terms of the model. Otherwise a delivery only fails before anything is sent, because a method is not
supported, or on an answer in which it does not find the keys of the records that were stored.
-/

namespace GraphRecords

/-- A state, with the errors that were raised on the way to it. -/
structure Watched (σ : Type) where
  raised : List AdapterError := []
  state : σ

/-- The error that a result is, if it is one. -/
def raisedBy : Except AdapterError Answer → List AdapterError
  | .error error => [error]
  | .ok _ => []

/-- The adapter with a record of the errors that it raises; its answers stay the same. -/
def Adapter.watched {σ : Type} (adapter : Adapter σ) : Adapter (Watched σ) where
  identity := adapter.identity
  supports := adapter.supports
  maxConcurrency := adapter.maxConcurrency
  execute := fun datastore query watched =>
    let (result, state) := adapter.execute datastore query watched.state
    (result, ⟨watched.raised ++ raisedBy result, state⟩)

/-- The error has the message of its source, and the code of broken uniqueness exactly where the
adapter reports that. -/
theorem translateError_eq (model : Model) (context : CallContext) (owner : String)
    (source : AdapterError) :
    ∃ failure, translateError model context owner source =
        .adapter failure owner source.message source context ∧
      (failure.code = "E_UNIQUE" ↔ ∃ columns, source.footprint = some (.notUnique columns)) := by
  refine ⟨_, rfl, ?_⟩
  split
  · rename_i columns hfootprint
    exact ⟨fun _ => ⟨columns, hfootprint⟩, fun _ => rfl⟩
  · rename_i hother
    refine ⟨fun hcode => absurd hcode (by decide), ?_⟩
    rintro ⟨columns, hfootprint⟩
    exact absurd hfootprint (hother columns)

namespace Delivery

open Outcome

variable {σ α : Type} {d : Delivery σ} {query : PhysicalQuery}

/-- The delivery through an adapter that keeps the errors that it raises. -/
def watched (d : Delivery σ) : Delivery (Watched σ) where
  adapter := d.adapter.watched
  datastore := d.datastore
  model := d.model
  context := d.context

/-- The error is about an answer that does not have the keys of the stored records. -/
def AnswerFault (source : AdapterError) : Prop :=
  (∃ column, source = missingKey column) ∨ ∃ expected found, source = wrongCount expected found

/-- How a delivery or a part of one ends, by the errors that its adapter has raised meanwhile. -/
inductive Ends (d : Delivery σ) : Except OrmError α → List AdapterError → Prop
  | succeeds (a : α) : Ends d (.ok a) []
  | unsupported (method : Method) :
      Ends d (.error (.configuration (.unsupportedMethod d.adapter.identity method))) []
  | raised (source : AdapterError) : Ends d (.error (d.fault source)) [source]
  | unanswered {source : AdapterError} (h : AnswerFault source) :
      Ends d (.error (d.fault source)) []

private theorem Ends.of_part {β : Type} {error : OrmError} {raised : List AdapterError}
    (h : d.Ends (.error error : Except OrmError α) raised) :
    d.Ends (.error error : Except OrmError β) raised := by
  cases h with
  | unsupported method => exact .unsupported method
  | raised source => exact .raised source
  | unanswered h => exact .unanswered h

private theorem execute_watched_cases (query : PhysicalQuery) (seen : List AdapterError)
    (state : σ) :
    (∃ answer after, d.execute query state = (.ok answer, after) ∧
        d.watched.execute query ⟨seen, state⟩ = (.ok answer, ⟨seen, after⟩)) ∨
      ∃ source after, d.execute query state = (.error (d.fault source), after) ∧
        d.watched.execute query ⟨seen, state⟩ =
          (.error (d.fault source), ⟨seen ++ [source], after⟩) := by
  have hwatched : d.watched.execute query ⟨seen, state⟩ =
      ((d.execute query state).1,
        ⟨seen ++ raisedBy (d.adapter.execute d.datastore query state).1,
          (d.execute query state).2⟩) := rfl
  rw [hwatched, execute]
  rcases d.adapter.execute d.datastore query state with ⟨source | answer, after⟩
  · exact .inr ⟨source, after, rfl, rfl⟩
  · exact .inl ⟨answer, after, rfl, by simp [raisedBy, Except.mapError]⟩

private theorem storeMembers_watched (query : PhysicalQuery)
    (pairs : List (Record × CollectionReset)) (seen : List AdapterError) (state : σ) :
    ∃ raised, d.watched.storeMembers query pairs ⟨seen, state⟩ =
        ((d.storeMembers query pairs state).1,
          ⟨seen ++ raised, (d.storeMembers query pairs state).2⟩) ∧
      d.Ends (d.storeMembers query pairs state).1 raised := by
  induction pairs generalizing state with
  | nil => exact ⟨[], by simp [storeMembers], .succeeds ()⟩
  | cons pair rest ih =>
    obtain ⟨record, reset⟩ := pair
    rw [storeMembers, storeMembers]
    split
    · exact ih state
    · split
      · exact ⟨[], by simp [watched, fault, Adapter.watched], .unanswered (.inl ⟨_, rfl⟩)⟩
      · rename_i key _
        have hquery : d.watched.replaceQuery query key reset = d.replaceQuery query key reset := rfl
        rw [hquery]
        rcases execute_watched_cases (d := d) (d.replaceQuery query key reset) seen state with
          ⟨answer, after, hrun, hwatched⟩ | ⟨source, after, hrun, hwatched⟩
        · rw [hrun, hwatched]
          exact ih after
        · rw [hrun, hwatched]
          exact ⟨[source], rfl, .raised source⟩

private theorem applyResets_watched (query : PhysicalQuery) (answer : Answer)
    (seen : List AdapterError) (state : σ) :
    ∃ raised, d.watched.applyResets query answer ⟨seen, state⟩ =
        ((d.applyResets query answer state).1,
          ⟨seen ++ raised, (d.applyResets query answer state).2⟩) ∧
      d.Ends (d.applyResets query answer state).1 raised := by
  unfold applyResets
  dsimp only
  split
  · exact ⟨[], by rw [List.append_nil], .succeeds ()⟩
  · split
    · exact storeMembers_watched query _ seen state
    · exact ⟨[], by simp [watched, fault, Adapter.watched], .unanswered (.inr ⟨_, _, rfl⟩)⟩

/-- Keeping the errors that are raised changes nothing about a delivery. At most one is raised, and
the delivery then ends with it. -/
theorem run_watched (query : PhysicalQuery) (state : σ) :
    ∃ raised, d.watched.run query ⟨[], state⟩ =
        ((d.run query state).1, ⟨raised, (d.run query state).2⟩) ∧
      d.Ends (d.run query state).1 raised := by
  have hcheck : d.watched.check query = d.check query := rfl
  unfold run
  rw [hcheck]
  rcases d.check_cases query with hc | ⟨method, hc⟩
  · rw [hc]
    dsimp only
    rcases execute_watched_cases (d := d) query [] state with
      ⟨answer, after, hrun, hwatched⟩ | ⟨source, after, hrun, hwatched⟩
    · obtain ⟨raised, hresets, hends⟩ := applyResets_watched (d := d) query answer [] after
      rw [hrun, hwatched]
      dsimp only
      rw [hresets]
      rcases hlast : d.applyResets query answer after with ⟨error | done, last⟩
      · rw [hlast] at hends
        exact ⟨raised, rfl, hends.of_part⟩
      · rw [hlast] at hends
        cases hends
        exact ⟨[], rfl, .succeeds _⟩
    · rw [hrun, hwatched]
      exact ⟨[source], rfl, .raised source⟩
  · rw [hc]
    exact ⟨[], rfl, .unsupported method⟩

end Delivery

end GraphRecords
