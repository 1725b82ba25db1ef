import GraphRecords.Query.RecordRules
import GraphRecords.Query.Request

/-!
# Logical queries

A request that was checked against its model becomes a logical query in attribute names, or is
found to have nothing to do.
-/

namespace GraphRecords

structure LogicalQuery where
  method : Method
  identity : String
  newRecords : List Record := []
  criteria : Option Criteria := none
  valuesToSet : Option Record := none
  callMeta : Meta := {}
  deriving Repr

/-- Why a call has nothing to do. -/
inductive NoopReason where
  | noRecords
  | neverMatches
  deriving Repr, DecidableEq

def NoopReason.text : NoopReason → String
  | noRecords => "no new records"
  | neverMatches => "criteria can never match"

/-- What a call with nothing to do settles with. -/
def noopResult (method : Method) (fetch : Bool) : Option Json :=
  match method with
  | .find => some (.arr [])
  | .count => some (Json.nat 0)
  | .findOne => none
  | _ => if fetch then some (.arr []) else none

inductive Normalized where
  | ready (query : LogicalQuery)
  | noop (reason : NoopReason) (result : Option Json)
  deriving Repr

namespace LogicalQuery

def recordsFault (fault : RecordFault) : OrmError := .ofUsage (.newRecords fault)

def normalizeCreate (rules : RecordRules) (query : LogicalQuery) (request : Request) :
    Except OrmError Normalized :=
  match request.newRecord with
  | some (.obj record) => do
      let record ← (rules.newRecord record).mapError recordsFault
      .ok (.ready { query with newRecords := [record] })
  | given => .error (recordsFault (.notRecord given))

def normalizeBatch (rules : RecordRules) (query : LogicalQuery) (request : Request) :
    Except OrmError Normalized :=
  match request.newRecords with
  | some (.arr []) => .ok (.noop .noRecords (noopResult query.method query.callMeta.fetch))
  | some (.arr records) => do
      let records ← (rules.newRecords records).mapError recordsFault
      .ok (.ready { query with newRecords := records })
  | given => .error (recordsFault (.notRecords given))

def readCriteria (model : Model) (method : Method) (request : Request) :
    Except OrmError Criteria :=
  (Criteria.normalize method model request.criteria).mapError (fun fault =>
    .ofUsage (.criteria fault))

/-- The query over the criteria, or nothing to do where they ask for no record. -/
def selecting (model : Model) (query : LogicalQuery) (criteria : Criteria) : Normalized :=
  if criteria.isNever then .noop .neverMatches (noopResult query.method query.callMeta.fetch)
  else .ready { query with criteria := some (criteria.mergeBindings model.bindings) }

def normalizeSelection (rules : RecordRules) (query : LogicalQuery) (request : Request) :
    Except OrmError Normalized := do
  let criteria ← readCriteria rules.model query.method request
  .ok (selecting rules.model query criteria)

def normalizeUpdate (rules : RecordRules) (query : LogicalQuery) (request : Request) :
    Except OrmError Normalized := do
  let criteria ← readCriteria rules.model query.method request
  let values ← (rules.valuesToSet request.valuesToSet).mapError (fun fault =>
    OrmError.ofUsage (.valuesToSet fault))
  .ok (selecting rules.model { query with valuesToSet := some values } criteria)

/-- Checks a request and puts it into its one form. -/
def normalize (rules : RecordRules) (method : Method) (request : Request) :
    Except OrmError Normalized := do
  let callMeta ← (Meta.ofJson request.callMeta).mapError (fun fault =>
    OrmError.ofUsage (.callMeta fault))
  let query : LogicalQuery := { method, identity := rules.model.identity, callMeta }
  match method with
  | .create => normalizeCreate rules query request
  | .createEach | .normalizeEach => normalizeBatch rules query request
  | .find | .findOne | .count | .destroy => normalizeSelection rules query request
  | .update => normalizeUpdate rules query request
  | .replaceCollection => .error (.configuration .internalMethod)

end LogicalQuery

end GraphRecords
