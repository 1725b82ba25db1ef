import GraphRecords.Orm.BoundModel
import GraphRecords.Proofs.Query.Creation

/-!
# Calls without hooks

Where a model has no hooks, a call is its physical query handed to the adapter. A call that comes
down to no query leaves everything as it was.
-/

namespace GraphRecords.BoundModel

variable {σ : Type} {m : BoundModel σ} {method : Method} {request : Request}
variable {context : CallContext}

/-- The query that a call hands to the adapter where no hook changes it. -/
def physical? (m : BoundModel σ) (method : Method) (request : Request) (context : CallContext) :
    Option PhysicalQuery :=
  match LogicalQuery.normalize (m.rules context.madeAt) method request with
  | .ok (.ready query) => (PhysicalQuery.compile m.schema m.model.identity query).toOption
  | _ => none

private theorem hook?_of_no_callbacks (query : LogicalQuery) : query.hook? {} = none := by
  unfold LogicalQuery.hook?
  split
  · rfl
  · cases query.method <;> rfl

theorem run_state (hooks : m.callbacks = {}) (state : σ) :
    (m.run method request context state).state =
      match m.physical? method request context with
      | none => state
      | some physical => ((m.delivery context).run physical state).2 := by
  unfold run physical?
  cases LogicalQuery.normalize (m.rules context.madeAt) method request with
  | error error => rfl
  | ok normalized =>
    cases normalized with
    | noop reason result => rfl
    | ready query =>
      have hbefore : query.runBefore m.callbacks m.hookBound = (.ok query, {}) := by
        rw [LogicalQuery.runBefore, hooks, hook?_of_no_callbacks]
      simp only [hbefore, finish]
      cases PhysicalQuery.compile m.schema m.model.identity query <;> rfl

theorem physical?_eq_some {physical : PhysicalQuery}
    (h : m.physical? method request context = some physical) :
    ∃ query, LogicalQuery.normalize (m.rules context.madeAt) method request = .ok (.ready query) ∧
      PhysicalQuery.compile m.schema m.model.identity query = .ok physical := by
  unfold physical? at h
  split at h
  · rename_i query hnormalize
    refine ⟨query, hnormalize, ?_⟩
    cases hcompile : PhysicalQuery.compile m.schema m.model.identity query with
    | error error =>
      rw [hcompile] at h
      cases h
    | ok compiled =>
      rw [hcompile] at h
      cases h
      rfl
  · cases h

theorem physical?_creates (hm : method.createsRecords = true) {physical : PhysicalQuery}
    (h : m.physical? method request context = some physical) : physical.Creates method := by
  obtain ⟨query, hnormalize, hcompile⟩ := physical?_eq_some h
  obtain ⟨hmethod, hsingle⟩ := LogicalQuery.normalize_eq_ready hm hnormalize
  subst hmethod
  exact PhysicalQuery.compile_creates hcompile hsingle

theorem run_ok_cases (hooks : m.callbacks = {}) {state : σ} {answer : Answer}
    (h : (m.run method request context state).result = .ok answer) :
    (m.physical? method request context = none ∧ ∃ reason result,
      LogicalQuery.normalize (m.rules context.madeAt) method request =
        .ok (.noop reason result)) ∨
    ∃ physical, m.physical? method request context = some physical ∧
      ((m.delivery context).run physical state).1 = .ok answer := by
  unfold run at h
  unfold physical?
  cases hn : LogicalQuery.normalize (m.rules context.madeAt) method request with
  | error error =>
    rw [hn] at h
    cases h
  | ok normalized =>
    cases normalized with
    | noop reason result => exact .inl ⟨rfl, reason, result, rfl⟩
    | ready query =>
      have hbefore : query.runBefore m.callbacks m.hookBound = (.ok query, {}) := by
        rw [LogicalQuery.runBefore, hooks, hook?_of_no_callbacks]
      simp only [hn, hbefore, finish] at h
      have hresult := Outcome.mapError_eq_ok_iff.mp h
      cases hcompile : PhysicalQuery.compile m.schema m.model.identity query with
      | error error =>
        rw [hcompile] at hresult
        cases hresult
      | ok physical =>
        rw [hcompile] at hresult
        exact .inr ⟨physical, congrArg Except.toOption hcompile, hresult⟩

end GraphRecords.BoundModel
