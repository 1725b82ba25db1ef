import GraphRecords.Hook.Before
import GraphRecords.Hook.Script
import GraphRecords.Proofs.Hook.Fanout

/-!
# Hooks before a create

What a call comes to does not depend on the order in which the calls of its hook settle: either the
hook accepts every record and the query has what it makes of each, or the query is refused with the
failure of a record that the hook refuses.
-/

namespace GraphRecords.LogicalQuery

/-- What the calls of a hook on the new records of a query make of the query. -/
def afterCalls (query : LogicalQuery) (calls : Fanout) : Except OrmError LogicalQuery :=
  match calls.outcome with
  | .ok records => .ok { query with newRecords := records }
  | .error failure => .error (lifecycleFault .beforeCreate failure)

private theorem runBeforeCreate_eq (hook : Hook) (bound : Nat) (query : LogicalQuery) :
    query.runBeforeCreate hook bound =
      (query.afterCalls (Fanout.run hook bound query.newRecords),
        (Fanout.run hook bound query.newRecords).report) := by
  simp only [runBeforeCreate, afterCalls]
  cases (Fanout.run hook bound query.newRecords).outcome <;> rfl

/-- The hook before a create is run on the new records in one of many ways, which differ in the
order in which its calls start and settle. In none of them are more calls in flight than the bound
allows, where a bound of 0 counts as 1. The records called on are the first of the batch, each once,
and the calls end. Then, if the hook accepts all records, it has been called once on each of them,
and the query has what the calls made of the records, in their order, and is else as it was. If the
hook refuses a record, the query is refused with the failure of such a record. -/
theorem runBefore_any_order (callbacks : Callbacks) (bound : Nat) (query : LogicalQuery)
    (hook : Hook) (h : query.hook? callbacks = some (.beforeCreate, hook)) :
    (∃ moves last, (Fanout.ofRecords query.newRecords).play? hook bound moves = some last ∧
      last.Done hook bound ∧
      query.runBefore callbacks bound = (query.afterCalls last, last.report)) ∧
    ∀ moves state, (Fanout.ofRecords query.newRecords).play? hook bound moves = some state →
      moves.length ≤ 2 * query.newRecords.length ∧
      state.inFlight.length ≤ max 1 bound ∧ state.report.peak ≤ max 1 bound ∧
      state.waiting = (Fanout.ofRecords query.newRecords).waiting.drop state.report.calls ∧
      (state.Done hook bound →
        ((∀ record ∈ query.newRecords, (hook record).result.isOk = true) →
          ∃ changed, List.Forall₂ (fun record next => (hook record).result = .ok next)
              query.newRecords changed ∧
            state.report.calls = query.newRecords.length ∧
            query.afterCalls state = .ok { query with newRecords := changed }) ∧
        ((∃ record ∈ query.newRecords, (hook record).result.isOk = false) →
          ∃ record ∈ query.newRecords, ∃ failure, (hook record).result = .error failure ∧
            query.afterCalls state = .error (.lifecycle .beforeCreate failure none))) := by
  constructor
  · obtain ⟨moves, hplay, hdone⟩ := Fanout.exists_play?_eq_run hook bound query.newRecords
    refine ⟨moves, _, hplay, hdone, ?_⟩
    rw [runBefore, h]
    exact runBeforeCreate_eq hook bound query
  · intro moves state hplay
    have hsound := (Fanout.sound_ofRecords hook bound query.newRecords).play? hplay
    have hlength := Fanout.length_le_of_play? hplay
    rw [Fanout.remaining_ofRecords] at hlength
    refine ⟨by omega, hsound.inFlight_le, hsound.peak_le, hsound.waiting, ?_⟩
    intro hdone
    rcases hsound.outcome hdone with
      ⟨changed, hmade, houtcome, hcalls⟩ | ⟨record, hrecord, failure, hfailed, houtcome⟩
    · have hall := Outcome.mapM_eq_ok_iff.mp hmade
      constructor
      · intro _
        exact ⟨changed, hall, hcalls, by rw [afterCalls, houtcome]⟩
      · rintro ⟨record, hrecord, hrefused⟩
        obtain ⟨next, _, hnext⟩ := Outcome.exists_mem_of_forall₂ hall.flip hrecord
        rw [show (hook record).result = .ok next from hnext] at hrefused
        cases hrefused
    · constructor
      · intro haccepted
        have hok := haccepted record hrecord
        rw [hfailed] at hok
        cases hok
      · intro _
        exact ⟨record, hrecord, failure, hfailed, by rw [afterCalls, houtcome]; rfl⟩

private def twoNames : LogicalQuery where
  method := .createEach
  identity := "pet"
  newRecords := [⟨[("name", .str "Rex")]⟩, ⟨[("name", .str "Tom")]⟩]

private def marksKnown : Hook :=
  .ofActions [{ effect := .suspend }, { effect := .set "known" (.bool true) }]

/-- The first of two calls in flight is the last to settle, and its record still comes first. -/
theorem runBefore_any_order_reversed :
    ∃ state changed, (Fanout.ofRecords twoNames.newRecords).play? marksKnown 2
        [.start, .start, .settle 1, .settle 0] = some state ∧
      List.Forall₂ (fun record next => (marksKnown record).result = .ok next)
        twoNames.newRecords changed ∧
      state.report.calls = 2 ∧
      twoNames.afterCalls state = .ok { twoNames with newRecords := changed } := by
  obtain ⟨_, _, _, _, hdone⟩ := (runBefore_any_order { beforeCreate := some marksKnown } 2 twoNames
    marksKnown rfl).2 [.start, .start, .settle 1, .settle 0] _ rfl
  obtain ⟨changed, hall, hcalls, hafter⟩ := (hdone (Fanout.done_of_empty rfl rfl)).1 (by decide)
  exact ⟨_, changed, rfl, hall, hcalls, hafter⟩

end GraphRecords.LogicalQuery
