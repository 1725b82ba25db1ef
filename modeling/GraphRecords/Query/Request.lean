import GraphRecords.Query.Criteria
import GraphRecords.Query.Meta

/-!
# Requests

What a caller hands in, not yet looked at. An absent part differs from a null one. Modifiers
change one part of a request at a time.
-/

namespace GraphRecords

structure Request where
  newRecord : Option Json := none
  newRecords : Option Json := none
  criteria : Option Json := none
  valuesToSet : Option Json := none
  callMeta : Option Json := none
  deriving Repr, Inhabited

namespace Request

/-- The clauses of raw criteria; anything but clauses becomes the filter. -/
def clausesOf : Option Json → Record
  | none => .empty
  | some (.obj fields) =>
      if fields.isEmpty || Criteria.hasClause fields then fields
      else Dict.empty.insert "where" (.obj fields)
  | some value => Dict.empty.insert "where" value

def setClause (request : Request) (clause : String) (value : Json) : Request :=
  { request with criteria := some (.obj ((clausesOf request.criteria).insert clause value)) }

/-- Sets a key of the metadata, unless what was given for metadata is no dictionary. -/
def setMetaKey (request : Request) (key : String) (value : Json) : Request :=
  match request.callMeta with
  | none => { request with callMeta := some (.obj (Dict.empty.insert key value)) }
  | some (.obj fields) => { request with callMeta := some (.obj (fields.insert key value)) }
  | some _ => request

/-- The dictionary of a request, without its absent parts. -/
def toJson (request : Request) : Json :=
  .obj (Dict.empty
    |>.insert? "newRecord" request.newRecord
    |>.insert? "newRecords" request.newRecords
    |>.insert? "criteria" request.criteria
    |>.insert? "valuesToSet" request.valuesToSet
    |>.insert? "meta" request.callMeta)

end Request

/-- A change to the request of a call before it runs. -/
inductive RequestModifier where
  | filter (value : Json)
  | limit (count : Nat)
  | skip (count : Nat)
  | sort (value : Json)
  | select (names : List String)
  | omitting (names : List String)
  | set (values : Json)
  | fetch
  | metaKey (key : String) (value : Json)
  | skipHooks
  deriving Repr

namespace RequestModifier

def apply (request : Request) : RequestModifier → Request
  | filter value => request.setClause "where" value
  | limit count => request.setClause "limit" (Json.nat count)
  | skip count => request.setClause "skip" (Json.nat count)
  | sort value => request.setClause "sort" value
  | select names => request.setClause "select" (Json.strings names)
  | omitting names => request.setClause "omit" (Json.strings names)
  | set values => { request with valuesToSet := some values }
  | fetch => request.setMetaKey Meta.fetchKey (.bool true)
  | metaKey key value => request.setMetaKey key value
  | skipHooks => request.setMetaKey Meta.skipHooksKey (.bool true)

/-- The methods whose calls have the modifier. -/
def methods : RequestModifier → List Method
  | filter _ => [.find, .findOne, .count, .update, .destroy]
  | limit _ | skip _ | sort _ => [.find]
  | select _ | omitting _ => [.find, .findOne]
  | set _ => [.update]
  | fetch => [.create, .createEach, .normalizeEach, .update, .destroy]
  | metaKey _ _ | skipHooks => Method.all

def availableFor (method : Method) (modifier : RequestModifier) : Bool :=
  modifier.methods.contains method

end RequestModifier

namespace Request

/-- Applies modifiers in order; nothing if the method lacks one of them. -/
def modify? (method : Method) (request : Request) : List RequestModifier → Option Request
  | [] => some request
  | modifier :: rest =>
      if modifier.availableFor method then modify? method (modifier.apply request) rest else none

/-- The request that a call of the method with one argument starts from. -/
def ofArgument (method : Method) (argument : Json) : Request :=
  match method with
  | .create => { newRecord := some argument }
  | .createEach | .normalizeEach => { newRecords := some argument }
  | .find | .findOne | .count | .update | .destroy => { criteria := some argument }
  | .replaceCollection => {}

end Request

end GraphRecords
