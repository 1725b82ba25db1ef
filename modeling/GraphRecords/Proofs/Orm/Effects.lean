import GraphRecords.Orm.BoundModel
import GraphRecords.Proofs.Delivery.Sequence

/-!
# The queries of a call

A call is checked as a whole before the first query is sent. So it sends nothing where it has
nothing to do or fails other than at the adapter, and else one query and those that store members.
-/

namespace GraphRecords

open Outcome

theorem OrmError.isAdapter_of_context? {error : OrmError} (h : error.context? = none) :
    error.isAdapter = false := by
  cases error with
  | adapter => cases h
  | usage | lifecycle | configuration => rfl

private theorem OrmError.usage_failsOnly {ε α : Type} (f : ε → UsageFault) (x : Except ε α) :
    FailsOnly (·.context? = none) (x.mapError fun fault => OrmError.ofUsage (f fault)) :=
  failsOnly_mapError (f := fun fault => OrmError.ofUsage (f fault)) (fun _ => rfl) x

private theorem LogicalQuery.normalize_failsOnly (rules : RecordRules) (method : Method)
    (request : Request) : FailsOnly (·.context? = none) (normalize rules method request) := by
  have hcriteria : FailsOnly (·.context? = none) (readCriteria rules.model method request) := by
    unfold readCriteria
    exact OrmError.usage_failsOnly _ _
  refine (OrmError.usage_failsOnly _ _).bind fun callMeta => ?_
  cases method with
  | create =>
    dsimp only
    unfold normalizeCreate
    split
    · exact (OrmError.usage_failsOnly _ _).bind fun _ => failsOnly_ok _
    · exact failsOnly_error rfl
  | createEach | normalizeEach =>
    dsimp only
    unfold normalizeBatch
    split
    · exact failsOnly_ok _
    · exact (OrmError.usage_failsOnly _ _).bind fun _ => failsOnly_ok _
    · exact failsOnly_error rfl
  | find | findOne | count | destroy => exact hcriteria.bind fun _ => failsOnly_ok _
  | update =>
    exact hcriteria.bind fun _ => (OrmError.usage_failsOnly _ _).bind fun _ => failsOnly_ok _
  | replaceCollection => exact failsOnly_error rfl

private theorem LogicalQuery.runBefore_failsOnly (callbacks : Callbacks) (bound : Nat)
    (query : LogicalQuery) :
    FailsOnly (·.context? = none) (query.runBefore callbacks bound).1 := by
  unfold runBefore
  split
  · exact failsOnly_ok query
  · unfold runBeforeCreate
    dsimp only
    split
    · exact failsOnly_ok _
    · exact failsOnly_error rfl
  · unfold runBeforeUpdate
    split
    · exact failsOnly_ok query
    · split
      · exact failsOnly_ok _
      · exact failsOnly_error rfl
  · unfold runBeforeDestroy
    split
    · exact failsOnly_ok query
    · split
      · exact failsOnly_ok _
      · exact failsOnly_error rfl

private theorem PhysicalQuery.compile_failsOnly (schema : Schema) (identity : String)
    (query : LogicalQuery) : FailsOnly (·.context? = none) (compile schema identity query) := by
  unfold compile
  split
  · unfold ofLogical
    exact (OrmError.usage_failsOnly _ _).bind fun _ => failsOnly_ok _
  · exact failsOnly_error rfl

namespace BoundModel

variable {σ : Type} {m : BoundModel σ} {method : Method} {request : Request}
variable {context : CallContext} {state : σ}

/-- The model bound to an adapter that keeps the queries that it receives. -/
def recorded (m : BoundModel σ) : BoundModel (Recorded σ) where
  model := m.model
  datastore := m.datastore
  adapter := m.adapter.recorded
  schema := m.schema
  callbacks := m.callbacks
  settings := m.settings

/-- What a call comes to before anything is sent: it is settled, or it has a query to send. -/
inductive Prepared where
  | settled (result : Except OrmError Answer)
  | query (physical : PhysicalQuery)

def prepare (m : BoundModel σ) (method : Method) (request : Request) (context : CallContext) :
    Prepared × HookReport :=
  match LogicalQuery.normalize (m.rules context.madeAt) method request with
  | .error error => (.settled (.error (error.withContext context)), {})
  | .ok (.noop _ result) => (.settled (.ok result), {})
  | .ok (.ready query) =>
      match query.runBefore m.callbacks m.hookBound with
      | (.error error, hooks) => (.settled (.error (error.withContext context)), hooks)
      | (.ok query, hooks) =>
          match PhysicalQuery.compile m.schema m.model.identity query with
          | .error error => (.settled (.error (error.withContext context)), hooks)
          | .ok physical => (.query physical, hooks)

/-- How a call goes on once it is prepared. -/
def proceed (m : BoundModel σ) (context : CallContext) (state : σ) :
    Prepared × HookReport → Settled σ
  | (.settled result, hooks) => ⟨result, hooks, state⟩
  | (.query physical, hooks) =>
      let (result, state) := (m.delivery context).run physical state
      ⟨result.mapError (·.withContext context), hooks, state⟩

theorem run_eq_proceed (m : BoundModel σ) (method : Method) (request : Request)
    (context : CallContext) (state : σ) :
    m.run method request context state =
      m.proceed context state (m.prepare method request context) := by
  unfold run prepare finish
  cases LogicalQuery.normalize (m.rules context.madeAt) method request with
  | error error => rfl
  | ok normalized =>
    cases normalized with
    | noop reason result => rfl
    | ready query =>
      dsimp only
      rcases query.runBefore m.callbacks m.hookBound with ⟨error | hooked, hooks⟩
      · rfl
      · dsimp only
        cases PhysicalQuery.compile m.schema m.model.identity hooked <;> rfl

/-- The call is found to have nothing to do. -/
def HasNothingToDo (m : BoundModel σ) (method : Method) (request : Request)
    (context : CallContext) : Prop :=
  ∃ reason result, LogicalQuery.normalize (m.rules context.madeAt) method request =
    .ok (.noop reason result)

/-- What is settled before anything is sent has nothing to do, or fails with an error that takes the
context of the call. -/
theorem prepare_settled_cases {result : Except OrmError Answer}
    (h : (m.prepare method request context).1 = .settled result) :
    (m.HasNothingToDo method request context ∧ ∃ answer, result = .ok answer) ∨
      ∃ error : OrmError, result = .error (error.withContext context) ∧ error.context? = none := by
  unfold prepare at h
  split at h
  · rename_i error hn
    cases h
    exact .inr ⟨error, rfl, LogicalQuery.normalize_failsOnly _ _ _ error hn⟩
  · rename_i reason answer hn
    cases h
    exact .inl ⟨⟨reason, answer, hn⟩, answer, rfl⟩
  · split at h
    · rename_i error hooks hb
      cases h
      exact .inr ⟨error, rfl, LogicalQuery.runBefore_failsOnly _ _ _ error (congrArg Prod.fst hb)⟩
    · split at h
      · rename_i error hc
        cases h
        exact .inr ⟨error, rfl, PhysicalQuery.compile_failsOnly _ _ _ error hc⟩
      · cases h

private theorem prepare_settled {result : Except OrmError Answer}
    (h : (m.prepare method request context).1 = .settled result) :
    m.HasNothingToDo method request context ∨
      ∃ error, result = .error error ∧ error.isAdapter = false := by
  rcases prepare_settled_cases h with ⟨hnothing, _⟩ | ⟨error, hresult, hcontext⟩
  · exact .inl hnothing
  · refine .inr ⟨_, hresult, ?_⟩
    rw [OrmError.isAdapter_withContext]
    exact OrmError.isAdapter_of_context? hcontext

private theorem prepare_query {physical : PhysicalQuery}
    (h : (m.prepare method request context).1 = .query physical) :
    ¬ m.HasNothingToDo method request context := by
  rintro ⟨reason, result, hn⟩
  rw [prepare, hn] at h
  cases h

private theorem not_early {physical : PhysicalQuery}
    (hquery : (m.prepare method request context).1 = .query physical)
    {result : Except OrmError Answer} (h : FailsOnly (·.isAdapter = true) result) :
    ¬ (m.HasNothingToDo method request context ∨
      ∃ error, result.mapError (·.withContext context) = .error error ∧
        error.isAdapter = false) := by
  rintro (hnothing | ⟨error, herror, hkind⟩)
  · exact prepare_query hquery hnothing
  · obtain ⟨source, rfl⟩ := mapError_eq_error herror
    obtain rfl := Except.error.inj herror
    rw [OrmError.isAdapter_withContext, h source rfl] at hkind
    cases hkind

private theorem proceed_recorded (m : BoundModel σ) (context : CallContext)
    (physical : PhysicalQuery) (hooks : HookReport) (state : σ) :
    ∃ sent, m.recorded.proceed context ⟨[], state⟩ (.query physical, hooks) =
        ⟨((m.delivery context).run physical state).1.mapError (·.withContext context), hooks,
          ⟨sent.map (m.datastore.name, ·), ((m.delivery context).run physical state).2⟩⟩ ∧
      (m.delivery context).Sends physical state ((m.delivery context).run physical state).1
        sent := by
  obtain ⟨sent, hrun, hsends⟩ := Delivery.run_recorded (d := m.delivery context) physical state
  have hproceed : m.recorded.proceed context ⟨[], state⟩ (.query physical, hooks) =
      let (result, state) := (m.delivery context).recorded.run physical ⟨[], state⟩
      ⟨result.mapError (·.withContext context), hooks, state⟩ := rfl
  rw [hproceed, hrun]
  exact ⟨sent, rfl, hsends⟩

/-- What a call sends. Nothing, where it has nothing to do or fails with an error of usage, of a
hook or of configuration. Otherwise its query and, only if that is answered, the queries that
store members, from the first on; all of them, if the call succeeds. The log of what is sent
changes nothing about the call. -/
theorem run_effects (m : BoundModel σ) (method : Method) (request : Request)
    (context : CallContext) (state : σ) :
    let settled := m.run method request context state
    let early := m.HasNothingToDo method request context ∨
      ∃ error, settled.result = .error error ∧ error.isAdapter = false
    ∃ sent : List PhysicalQuery,
      m.recorded.run method request context ⟨[], state⟩ =
        ⟨settled.result, settled.hooks, ⟨sent.map (m.datastore.name, ·), settled.state⟩⟩ ∧
      (early → sent = []) ∧
      (¬ early → ∃ query rest, (m.prepare method request context).1 = .query query ∧
        sent = query :: rest ∧
          match (m.adapter.execute m.datastore query state).1 with
          | .error _ => rest = [] ∧ settled.result.isOk = false
          | .ok answer => (m.delivery context).Follows query
              ((Delivery.persisted answer).zip query.resets) query.resets settled.result.isOk
              rest) := by
  have hprepare : m.recorded.prepare method request context = m.prepare method request context :=
    rfl
  rw [run_eq_proceed m, run_eq_proceed m.recorded, hprepare]
  rcases hp : m.prepare method request context with ⟨result | physical, hooks⟩
  · have hearly := prepare_settled (congrArg Prod.fst hp)
    exact ⟨[], rfl, fun _ => rfl, fun h => absurd hearly h⟩
  · obtain ⟨sent, hrecorded, hsends⟩ := m.proceed_recorded context physical hooks state
    refine ⟨sent, hrecorded, ?_⟩
    have hlate (result : Except OrmError Answer) (h : FailsOnly (·.isAdapter = true) result) :=
      not_early (congrArg Prod.fst hp) h
    have hsettled : (m.proceed context state (.query physical, hooks)).result =
        ((m.delivery context).run physical state).1.mapError (·.withContext context) := rfl
    rw [hsettled]
    generalize ((m.delivery context).run physical state).1 = result at hsends
    cases hsends with
    | @refused error hkind =>
      rw [← OrmError.isAdapter_withContext error context] at hkind
      exact ⟨fun _ => rfl, fun h => absurd (.inr ⟨_, rfl, hkind⟩) h⟩
    | failed hquery hkind =>
      refine ⟨fun h => absurd h (hlate _ (failsOnly_error hkind)),
        fun _ => ⟨physical, [], rfl, rfl, ?_⟩⟩
      change (m.adapter.execute m.datastore physical state).1 = _ at hquery
      rw [hquery]
      exact ⟨rfl, rfl⟩
    | @answered _ answer rest hquery hkind hfollows =>
      refine ⟨fun h => absurd h (hlate _ hkind), fun _ => ⟨physical, rest, rfl, rfl, ?_⟩⟩
      change (m.adapter.execute m.datastore physical state).1 = _ at hquery
      have hok : (result.mapError (·.withContext context)).isOk = result.isOk := by
        cases result <;> rfl
      rw [hquery, hok]
      exact hfollows

end BoundModel

end GraphRecords
