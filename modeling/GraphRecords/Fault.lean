import GraphRecords.Json.Writer
import GraphRecords.Method
import GraphRecords.Model.ValueType

/-!
# Usage faults

What can be wrong with a definition, a record, criteria or call metadata, each with its wording.
A fault has a stable code and sometimes further details.
-/

namespace GraphRecords

inductive UsageCode where
  | newRecords
  | criteria
  | valuesToSet
  | callMeta
  | modelDefinition
  | attributeDefinition
  | index
  | edgeDefinition
  | tenantType
  deriving Repr, DecidableEq, Inhabited

namespace UsageCode

def text : UsageCode → String
  | newRecords => "E_INVALID_NEW_RECORDS"
  | criteria => "E_INVALID_CRITERIA"
  | valuesToSet => "E_INVALID_VALUES_TO_SET"
  | callMeta => "E_INVALID_META"
  | modelDefinition => "E_INVALID_MODEL_DEFINITION"
  | attributeDefinition => "E_INVALID_ATTRIBUTE"
  | index => "E_INVALID_INDEX"
  | edgeDefinition => "E_INVALID_EDGE_DEFINITION"
  | tenantType => "E_INVALID_TENANT_TYPE"

def all : List UsageCode :=
  [newRecords, criteria, valuesToSet, callMeta, modelDefinition, attributeDefinition,
    index, edgeDefinition, tenantType]

def ofText? (text : String) : Option UsageCode := all.find? (·.text = text)

end UsageCode

/-- Every property that an attribute definition may have. -/
def attributeProperties : List String := [
  "type", "defaultsTo", "required", "allowNull", "autoUpdatedAt", "autoCreatedAt",
  "autoMigrations", "validations", "rules", "through", "collection", "model", "via", "dominant",
  "columnName", "meta", "encrypt", "description", "extendedDescription", "moreInfoUrl", "example",
  "protect"]

def isAttributeProperty (property : String) : Bool := attributeProperties.contains property

inductive AttributeFault where
  | notDictionary
  | unknownProperties (names : List String)
  | unknownType (name : String)
  | typeNotString
  | notString (property : String)
  | notFlag (property : String)
  | twoTargets
  | typedAssociation
  deriving Repr, DecidableEq

namespace AttributeFault

def message (model name : String) (fault : AttributeFault) : String :=
  let invalid (reason : String) :=
    s!"Invalid attribute `{name}` in model `{model}`: {reason}"
  match fault with
  | notDictionary => invalid "the definition must be a dictionary"
  | unknownProperties names =>
      let property := if names.length = 1 then "property" else "properties"
      let listed := ", ".intercalate names
      s!"Attribute `{name}` of model `{model}` uses unrecognized {property}: {listed}"
  | unknownType type =>
      invalid s!"unrecognized type `{type}` (expected string, number, boolean, json or ref)"
  | typeNotString => invalid "`type` must be a string"
  | notString property => invalid s!"`{property}` must be a string"
  | notFlag property => invalid s!"`{property}` must be a boolean"
  | twoTargets => invalid "an attribute cannot declare both `model` and `collection`"
  | typedAssociation => invalid "association attributes cannot declare a `type`"

def details : AttributeFault → Option String
  | unknownProperties _ => some ("Recognized properties: " ++ ", ".intercalate attributeProperties)
  | _ => none

end AttributeFault

inductive IndexFault where
  | notDictionary
  | fieldsNotArray
  | fieldNotString (entry : Json)
  | geoJsonNotFlag
  | sparseNotFlag
  | unknownAttribute (name : String)
  deriving Repr

def IndexFault.reason : IndexFault → String
  | notDictionary =>
      "each index must be a dictionary with a `fields` array and optional `geoJson`/`sparse` flags"
  | fieldsNotArray => "`fields` must be an array of attribute names"
  | fieldNotString entry => s!"index field `{entry.render}` must be a string"
  | geoJsonNotFlag => "the `geoJson` attribute of an index must be a boolean"
  | sparseNotFlag => "the `sparse` attribute of an index must be a boolean"
  | unknownAttribute name => s!"`{name}` is not a recognized attribute"

/-- What was given, or that nothing was. -/
def givenText : Option Json → String
  | some value => value.render
  | none => "nothing"

inductive CriteriaFault where
  | unknownClause (clause : String)
  | clauseNotAllowed (clause : String) (method : Method)
  | letNotDictionary (given : Json)
  | selectWithOmit
  | keysNotScalar
  | notCriteria (given : Json)
  | branchesNotArray (key : String)
  | branchNotDictionary (key : String)
  | unrecognized (name model : String)
  | toManyFilter (name : String)
  | modifierNotArray (modifier name : String)
  | notNatural (clause : String) (given : Json)
  | notSortable (name : String)
  | unknownDirection (direction : Json) (name : String)
  | unknownDirectionWord (word : String)
  | sortNested
  | notSort (given : Json)
  | sortEmpty
  | sortMalformed (expression : String)
  | namesNotArray (clause : String)
  | nameNotString (clause : String)
  | unknownName (name clause : String)
  deriving Repr

def CriteriaFault.message : CriteriaFault → String
  | unknownClause clause =>
      s!"Unrecognized clause `{clause}` in criteria (if it is an attribute, put it inside `where`)"
  | clauseNotAllowed clause method => s!"`{clause}` cannot be used with `{method.name}`"
  | letNotDictionary given => s!"`let` must be a dictionary, got {given.render}"
  | selectWithOmit => "`select` and `omit` cannot be used together"
  | keysNotScalar => "A list of primary key values may only contain strings or numbers"
  | notCriteria given =>
      "Criteria must be a dictionary, a primary key value, or a list of primary key values; got " ++
        given.render
  | branchesNotArray key => s!"`{key}` must be an array of dictionaries"
  | branchNotDictionary key => s!"Each `{key}` branch must be a dictionary"
  | unrecognized name model =>
      s!"`{name}` is not a recognized attribute of model `{model}`"
  | toManyFilter name => s!"Cannot filter by to-many association `{name}`"
  | modifierNotArray modifier name =>
      s!"The `{modifier}` modifier on `{name}` must be an array"
  | notNatural clause given => s!"`{clause}` must be a non-negative integer, got {given.render}"
  | notSortable name => s!"Cannot sort by `{name}`"
  | unknownDirection direction name =>
      s!"Unrecognized sort direction {direction.render} for `{name}`"
  | unknownDirectionWord word => s!"Unrecognized sort direction `{word}`"
  | sortNested => "Sort entries cannot be nested arrays"
  | notSort given => s!"Unrecognized sort clause {given.render}"
  | sortEmpty => "Sort expression cannot be empty"
  | sortMalformed expression => s!"Malformed sort expression `{expression}`"
  | namesNotArray clause => s!"`{clause}` must be an array of attribute names"
  | nameNotString clause => s!"`{clause}` entries must be strings"
  | unknownName name clause => s!"`{name}` in `{clause}` is not a recognized attribute"

inductive MetaFault where
  | notDictionary (given : Json)
  | notFlag (key : String) (given : Json)
  deriving Repr

namespace MetaFault

def message : MetaFault → String
  | notDictionary _ => "Meta must be a dictionary"
  | notFlag key given => s!"Meta key `{key}` must be a boolean, got {given.render}"

def details : MetaFault → Option String
  | notDictionary given => some s!"Got: {given.render}"
  | notFlag _ _ => none

end MetaFault

/-- A value that its key does not admit, in a new record or among values to set. -/
inductive ValueFault where
  | unrecognized (key model : String)
  | nullNotAllowed (key model : String)
  | notMembers (key : String) (given : Json)
  | badMember (key : String) (member : Json) (target : String)
  | badReference (key target : String) (given : Json)
  | wrongType (key model : String) (type : ValueType) (given : Json)
  deriving Repr

def ValueFault.message : ValueFault → String
  | unrecognized key model => s!"`{key}` is not a recognized attribute of model `{model}`"
  | nullNotAllowed key model => s!"`{key}` of model `{model}` does not allow null"
  | notMembers key given =>
      s!"To-many association `{key}` expects an array of primary key values, got {given.render}"
  | badMember key member target =>
      s!"`{key}` contains {member.render}, which is not a valid `{target}` primary key"
  | badReference key target given =>
      s!"Singular association `{key}` expects a `{target}` primary key, got {given.render}"
  | wrongType key model type given =>
      s!"`{key}` of model `{model}` expects a {type.name}, got {given.render}"

inductive RecordFault where
  | value (fault : ValueFault)
  | notRecord (given : Option Json)
  | notRecords (given : Option Json)
  | notRecordAt (position : Nat) (given : Json)
  | missingEndpoint (model endpoint : String)
  | requiredNull (name model : String)
  | requiredMissing (name model : String)
  | membersNotArray (name model : String) (given : Json)
  deriving Repr

def RecordFault.message : RecordFault → String
  | value fault => fault.message
  | notRecord given => s!"Expected a single record dictionary, got {givenText given}"
  | notRecords given => s!"Expected an array of record dictionaries, got {givenText given}"
  | notRecordAt position given =>
      s!"Record at index {position} is not a dictionary: {given.render}"
  | missingEndpoint model endpoint =>
      s!"Records of edge model `{model}` need a string `{endpoint}`"
  | requiredNull name model =>
      s!"`{name}` is required on `{model}` records and cannot be null"
  | requiredMissing name model =>
      s!"Missing value for required attribute `{name}` of model `{model}`"
  | membersNotArray name model given =>
      s!"To-many association `{name}` of model `{model}` must be an array, got {given.render}"

inductive ValuesFault where
  | value (fault : ValueFault)
  | notValues (given : Option Json)
  | toMany (name : String)
  | requiredNull (name : String)
  deriving Repr

def ValuesFault.message : ValuesFault → String
  | value fault => fault.message
  | notValues given => s!"Expected a non-empty dictionary of values to set, got {givenText given}"
  | toMany name =>
      s!"Cannot set to-many association `{name}` with update; replace the collection instead"
  | requiredNull name => s!"`{name}` is required and cannot be null"

inductive UsageFault where
  | unnamedModel
  | duplicateModel (identity : String)
  | tenantNotStrings (model : String)
  | edgeShape (table : String)
  | attributeDefinition (model name : String) (fault : AttributeFault)
  | unknownTarget (name model target : String)
  | index (table : String) (fault : IndexFault)
  | criteria (fault : CriteriaFault)
  | callMeta (fault : MetaFault)
  | newRecords (fault : RecordFault)
  | valuesToSet (fault : ValuesFault)
  | stated (code : UsageCode) (message : String) (details : Option String)
  deriving Repr

namespace UsageFault

def code : UsageFault → UsageCode
  | unnamedModel => .modelDefinition
  | duplicateModel _ => .modelDefinition
  | tenantNotStrings _ => .tenantType
  | edgeShape _ => .edgeDefinition
  | attributeDefinition _ _ _ => .attributeDefinition
  | unknownTarget _ _ _ => .attributeDefinition
  | index _ _ => .index
  | criteria _ => .criteria
  | callMeta _ => .callMeta
  | newRecords _ => .newRecords
  | valuesToSet _ => .valuesToSet
  | stated code _ _ => code

def message : UsageFault → String
  | unnamedModel => "A tableName or identity property must be set."
  | duplicateModel identity => s!"Duplicate model identity `{identity}`"
  | tenantNotStrings model =>
      s!"The `tenantType` specified in the definition for model `{model}` must be an array of " ++
        "strings."
  | edgeShape table =>
      s!"Unrecognized edgeDefinition for model `{table}`. " ++
        "Edge definitions need non-empty `from` and `to` arrays of collection names."
  | attributeDefinition model name fault => fault.message model name
  | unknownTarget name model target =>
      s!"Attribute `{name}` of model `{model}` references unknown model `{target}`"
  | index table fault => s!"Incorrect index definition for model `{table}`: {fault.reason}"
  | criteria fault => fault.message
  | callMeta fault => fault.message
  | newRecords fault => fault.message
  | valuesToSet fault => fault.message
  | stated _ message _ => message

def details : UsageFault → Option String
  | attributeDefinition _ _ fault => fault.details
  | callMeta fault => fault.details
  | stated _ _ details => details
  | _ => none

end UsageFault

end GraphRecords
