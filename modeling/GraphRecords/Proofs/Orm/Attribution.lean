import GraphRecords.Proofs.Delivery.Failures
import GraphRecords.Proofs.Orm.Effects

/-!
# Errors of a call

An error that arises before a query is sent is attributed to no call yet, so it takes the context
of the one that it stops. An error of the adapter is made with it, and keeps what was raised. Only
errors of configuration have none.
-/

namespace GraphRecords

private theorem OrmError.context?_withContext {error : OrmError} (h : error.context? = none)
    (context : CallContext) :
    (∃ fault, error.withContext context = .configuration fault) ∨
      (error.withContext context).context? = some context := by
  cases error with
  | usage fault own =>
    cases own with
    | none => exact .inr rfl
    | some => cases h
  | lifecycle hook source own =>
    cases own with
    | none => exact .inr rfl
    | some => cases h
  | adapter => cases h
  | configuration fault => exact .inl ⟨fault, rfl⟩

namespace BoundModel

variable {σ : Type} {m : BoundModel σ} {context : CallContext}

/-- The model bound to an adapter that keeps the errors that it raises. -/
def watched (m : BoundModel σ) : BoundModel (Watched σ) where
  model := m.model
  datastore := m.datastore
  adapter := m.adapter.watched
  schema := m.schema
  callbacks := m.callbacks
  settings := m.settings

/-- How a call ends, by the errors that its adapter has raised meanwhile. -/
inductive Ends (m : BoundModel σ) (context : CallContext) :
    Except OrmError Answer → List AdapterError → Prop
  | succeeds (answer : Answer) : Ends m context (.ok answer) []
  | stopped {error : OrmError} (h : error.context? = none) :
      Ends m context (.error (error.withContext context)) []
  | raised (source : AdapterError) :
      Ends m context (.error (translateError m.model context m.adapter.identity source)) [source]
  | unanswered {source : AdapterError} (h : Delivery.AnswerFault source) :
      Ends m context (.error (translateError m.model context m.adapter.identity source)) []

private theorem Ends.of_delivery {result : Except OrmError Answer} {raised : List AdapterError}
    (h : (m.delivery context).Ends result raised) :
    m.Ends context (result.mapError (·.withContext context)) raised := by
  cases h with
  | succeeds answer => exact .succeeds answer
  | unsupported method =>
    have hcontext : (OrmError.configuration
        (.unsupportedMethod m.adapter.identity method)).context? = none := rfl
    exact .stopped hcontext
  | raised source => exact .raised source
  | unanswered hfault => exact .unanswered hfault

/-- Keeping the errors that are raised changes nothing about a call. -/
theorem run_watched (m : BoundModel σ) (method : Method) (request : Request)
    (context : CallContext) (state : σ) :
    ∃ raised, m.watched.run method request context ⟨[], state⟩ =
        ⟨(m.run method request context state).result, (m.run method request context state).hooks,
          ⟨raised, (m.run method request context state).state⟩⟩ ∧
      m.Ends context (m.run method request context state).result raised := by
  have hprepare : m.watched.prepare method request context = m.prepare method request context :=
    rfl
  rw [run_eq_proceed m, run_eq_proceed m.watched, hprepare]
  rcases hp : m.prepare method request context with ⟨result | physical, hooks⟩
  -- The adapter is only asked once there is a query, so what is settled before raises nothing.
  · refine ⟨[], rfl, ?_⟩
    change m.Ends context result []
    rcases prepare_settled_cases (congrArg Prod.fst hp) with
      ⟨_, answer, rfl⟩ | ⟨error, rfl, hcontext⟩
    · exact .succeeds answer
    · exact .stopped hcontext
  · obtain ⟨raised, hrun, hends⟩ := Delivery.run_watched (d := m.delivery context) physical state
    have hproceed : m.watched.proceed context ⟨[], state⟩ (.query physical, hooks) =
        let (result, state) := (m.delivery context).watched.run physical ⟨[], state⟩
        ⟨result.mapError (·.withContext context), hooks, state⟩ := rfl
    rw [hproceed, hrun]
    exact ⟨raised, rfl, .of_delivery hends⟩

private theorem Ends.attributed {error : OrmError} {raised : List AdapterError}
    (h : m.Ends context (.error error) raised) :
    (∃ fault, error = .configuration fault) ∨ error.context? = some context := by
  cases h with
  | stopped hcontext => exact OrmError.context?_withContext hcontext context
  | raised | unanswered => exact .inr rfl

private theorem Ends.keeps {result : Except OrmError Answer} {raised : List AdapterError}
    {source : AdapterError} (h : m.Ends context result raised) (hsource : source ∈ raised) :
    raised = [source] ∧
      ∃ failure, result =
          .error (.adapter failure m.adapter.identity source.message source context) ∧
        (failure.code = "E_UNIQUE" ↔ ∃ columns, source.footprint = some (.notUnique columns)) := by
  cases h with
  | succeeds | stopped | unanswered => cases hsource
  | raised first =>
    obtain rfl := List.mem_singleton.mp hsource
    obtain ⟨failure, htranslate, hcode⟩ :=
      translateError_eq m.model context m.adapter.identity source
    exact ⟨rfl, failure, by rw [htranslate], hcode⟩

theorem Ends.source {failure : AdapterFailure} {owner message : String} {source : AdapterError}
    {given : CallContext} {raised : List AdapterError}
    (h : m.Ends context (.error (.adapter failure owner message source given)) raised) :
    message = source.message ∧
      (raised = [source] ∨ raised = [] ∧ Delivery.AnswerFault source) := by
  generalize herror :
    (.error (.adapter failure owner message source given) : Except OrmError Answer) = result at h
  cases h with
  | succeeds => cases herror
  | @stopped error hcontext =>
    have hadapter := OrmError.isAdapter_of_context? hcontext
    rw [← OrmError.isAdapter_withContext error context, ← Except.error.inj herror] at hadapter
    cases hadapter
  | raised first =>
    cases herror
    exact ⟨rfl, .inl rfl⟩
  | unanswered hfault =>
    cases herror
    exact ⟨rfl, .inr ⟨rfl, hfault⟩⟩

/-- Every failure of a call is attributed to it. An error has the context of the call or is one of
configuration, which has none. The adapter raises at most one error in a call, and the call then
fails with just that, its message and footprint included. Where the call fails with an error of the
adapter, it has the message of its source; if that was not raised, the keys of the stored records
were not found in an answer. -/
theorem run_failures_attributed (m : BoundModel σ) (method : Method) (request : Request)
    (context : CallContext) (state : σ) :
    let settled := m.run method request context state
    (∀ error, settled.result = .error error →
      (∃ fault, error = .configuration fault) ∧ error.context? = none ∨
        error.context? = some context) ∧
    ∃ raised : List AdapterError,
      m.watched.run method request context ⟨[], state⟩ =
        ⟨settled.result, settled.hooks, ⟨raised, settled.state⟩⟩ ∧
      (∀ source ∈ raised, raised = [source] ∧ ∃ failure,
        settled.result =
          .error (.adapter failure m.adapter.identity source.message source context) ∧
        (failure.code = "E_UNIQUE" ↔ ∃ columns, source.footprint = some (.notUnique columns))) ∧
      ∀ failure owner message source given,
        settled.result = .error (.adapter failure owner message source given) →
          message = source.message ∧
            (raised = [source] ∨ raised = [] ∧ Delivery.AnswerFault source) := by
  obtain ⟨raised, hwatched, hends⟩ := m.run_watched method request context state
  refine ⟨fun error herror => ?_, raised, hwatched, fun source => hends.keeps,
    fun failure owner message source given herror => ?_⟩
  · rw [herror] at hends
    rcases hends.attributed with ⟨fault, rfl⟩ | hcontext
    · exact .inl ⟨⟨fault, rfl⟩, rfl⟩
    · exact .inr hcontext
  · rw [herror] at hends
    exact hends.source

end BoundModel

end GraphRecords
