import GraphRecords.Settings
import GraphRecords.CallContext
import GraphRecords.Fault

/-!
# Errors

Every failure of a call is one of four kinds. A usage or lifecycle error takes the context of
its call once, an adapter error is made with it, and a configuration error has none.
-/

namespace GraphRecords

/-- A hint at the kind of failure an adapter met. -/
inductive Footprint where
  | notUnique (columns : List String)
  | catchall
  deriving Repr, DecidableEq

/-- An error as an adapter reports it. -/
structure AdapterError where
  message : String
  footprint : Option Footprint := none
  deriving Repr, DecidableEq

/-- The failure of an adapter in terms of attributes. -/
inductive AdapterFailure where
  | notUnique (attributes : List String)
  | catchall
  deriving Repr, DecidableEq

def AdapterFailure.code : AdapterFailure → String
  | notUnique _ => "E_UNIQUE"
  | catchall => "E_ADAPTER"

inductive HookError where
  | rejected (message : String) (hint : Option String)
  | failed (message : String)
  deriving Repr, DecidableEq

def HookError.message : HookError → String
  | rejected message none => s!"Rejected: {message}"
  | rejected message (some hint) => s!"Rejected: {message} (hint: {hint})"
  | failed message => s!"Hook failed: {message}"

inductive ConfigurationFault where
  | settings (error : SettingsError)
  | noDefaultDatastore (model : String)
  | unknownDefaultDatastore (model : String)
  | unknownDatastore (datastore model : String)
  | unknownClassType (name model : String)
  | unknownHookModel (identity : String)
  | datastoreLost (datastore model : String)
  | unknownModel (identity : String)
  | unknownQueryModel (identity : String)
  | internalMethod
  | unsupportedMethod (adapter : String) (method : Method)
  | noRuntime (context : CallContext)
  | stated (message : String)
  deriving Repr, DecidableEq

def ConfigurationFault.message : ConfigurationFault → String
  | settings error => error.message
  | noDefaultDatastore model =>
      s!"No `datastore` was specified in the definition for model `{model}`, and there is no " ++
        "default datastore (i.e. defined as \"default\") to fall back to. (Usually, if the " ++
        "\"default\" datastore is missing, it means the ORM is not set up correctly.)"
  | unknownDefaultDatastore model =>
      s!"Unrecognized datastore (`default`) specified in the definition for model `{model}`. " ++
        "(Usually, if the \"default\" datastore is missing, it means the ORM is not set up " ++
        "correctly.)"
  | unknownDatastore datastore model =>
      s!"Unrecognized datastore (`{datastore}`) specified in the definition for model " ++
        s!"`{model}`. Please make sure it exists. (If you're unsure, use \"default\".)"
  | unknownClassType name model =>
      s!"Unrecognized classType (`{name}`) specified in the definition for model `{model}`. " ++
        "(Usually, it should be one of Vertex, or Edge)"
  | unknownHookModel identity =>
      s!"Lifecycle callbacks were registered for unknown model `{identity}`"
  | datastoreLost datastore model =>
      s!"Datastore `{datastore}` of model `{model}` disappeared during linking"
  | unknownModel identity => s!"Unknown model `{identity}`"
  | unknownQueryModel identity => s!"Cannot forge a query for unknown model `{identity}`"
  | internalMethod =>
      "`replaceCollection` is issued by the dispatcher and cannot be called directly"
  | unsupportedMethod adapter method =>
      s!"The adapter used by this model (`{adapter}`) doesn't support the `{method.name}` method."
  | noRuntime context =>
      s!"Callback execution of {context.render} requires a running tokio runtime"
  | stated message => message

inductive OrmError where
  | usage (fault : UsageFault) (context : Option CallContext)
  | adapter (failure : AdapterFailure) (owner message : String) (source : AdapterError)
      (context : CallContext)
  | configuration (fault : ConfigurationFault)
  | lifecycle (hook : HookKind) (source : HookError) (context : Option CallContext)
  deriving Repr

namespace OrmError

/-- A usage error not yet attributed to a call. -/
def ofUsage (fault : UsageFault) : OrmError := usage fault none

def message : OrmError → String
  | usage fault _ => fault.code.text ++ ": " ++ fault.message
  | adapter failure owner message _ context =>
      s!"{failure.code} from adapter `{owner}` during {context.render}: {message}"
  | configuration fault => "Configuration error: " ++ fault.message
  | lifecycle hook source _ => s!"Lifecycle callback `{hook.name}` failed: {source.message}"

/-- Attributes the error to a call, unless it is already attributed to one. -/
def withContext (context : CallContext) : OrmError → OrmError
  | usage fault none => usage fault (some context)
  | lifecycle hook source none => lifecycle hook source (some context)
  | error => error

def context? : OrmError → Option CallContext
  | usage _ context => context
  | lifecycle _ _ context => context
  | adapter _ _ _ _ context => some context
  | configuration _ => none

def usageCode? : OrmError → Option UsageCode
  | usage fault _ => some fault.code
  | _ => none

/-- The first context stays. -/
theorem withContext_withContext (error : OrmError) (first second : CallContext) :
    (error.withContext first).withContext second = error.withContext first := by
  cases error with
  | usage _ context => cases context <;> rfl
  | lifecycle _ _ context => cases context <;> rfl
  | adapter => rfl
  | configuration => rfl

end OrmError

end GraphRecords
