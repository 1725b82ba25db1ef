import GraphRecords.Settings
import GraphRecords.Model.Schema
import GraphRecords.Time.Instant

/-!
# Rules for records

What a model asks of the values of new records and of values to set, and what it fills in where
a value is missing.
-/

namespace GraphRecords

/-- What the rules depend on besides the record. -/
structure RecordRules where
  model : Model
  schema : Schema
  strict : Bool
  now : Instant

namespace RecordRules

/-- A value other than null against the association or the type of its attribute. -/
def checkShape (rules : RecordRules) (a : Attribute) (key : String) (value : Json) :
    Except ValueFault Unit :=
  match a.association with
  | some (.collection target _ _ _) =>
      match value with
      | .arr members =>
          match members.find? (fun member => !rules.schema.isPrimaryKeyValue target member) with
          | some member => .error (.badMember key member target)
          | none => .ok ()
      | _ => .error (.notMembers key value)
  | some (.model target) =>
      if rules.schema.isPrimaryKeyValue target value then .ok ()
      else .error (.badReference key target value)
  | none =>
      match a.valueType with
      | some type =>
          if type.accepts value then .ok ()
          else .error (.wrongType key rules.model.identity type value)
      | none => .ok ()

/-- Null for a required attribute is left to the check of required attributes. -/
def checkDeclared (rules : RecordRules) (a : Attribute) (key : String) (value : Json) :
    Except ValueFault Unit :=
  if value.isNull then
    if a.acceptsNull || a.required then .ok ()
    else .error (.nullNotAllowed key rules.model.identity)
  else rules.checkShape a key value

def checkValue (rules : RecordRules) (key : String) (value : Json) : Except ValueFault Unit :=
  match rules.model.attribute? key with
  | some a => rules.checkDeclared a key value
  | none =>
      if rules.model.recognizes key || !rules.strict then .ok ()
      else .error (.unrecognized key rules.model.identity)

/-- Milliseconds where the attribute is of type number, else the text of the instant. -/
def timestamp (rules : RecordRules) (a : Attribute) : Json :=
  match a.valueType with
  | some .number => .int rules.now.milliseconds
  | _ => .str rules.now.render

/-- What a record without the attribute gets: an empty list for a to-many association, else a
timestamp, else the default. -/
def fill? (rules : RecordRules) (a : Attribute) : Option Json :=
  if a.isCollection then some (.arr [])
  else if a.isTimestamp then some (rules.timestamp a)
  else a.defaultValue

def checkEndpoint (rules : RecordRules) (record : Record) (endpoint : String) :
    Except RecordFault Unit :=
  if (record.get? endpoint).any (·.isString) then .ok ()
  else .error (.missingEndpoint rules.model.identity endpoint)

/-- Records of an edge model have a text for each of their two ends. -/
def checkEndpoints (rules : RecordRules) (record : Record) : Except RecordFault Unit :=
  if rules.model.role.isEdge then edgeAttributes.forM (rules.checkEndpoint record) else .ok ()

/-- One attribute of a new record: kept if it is there, filled in if there is a value for it. -/
def complete (rules : RecordRules) (record : Record) (a : Attribute) :
    Except RecordFault Record :=
  match record.get? a.name with
  | some value =>
      if a.required && value.isNull then .error (.requiredNull a.name rules.model.identity)
      else .ok record
  | none =>
      match rules.fill? a with
      | some value => .ok (record.insert a.name value)
      | none =>
          if a.required then .error (.requiredMissing a.name rules.model.identity)
          else .ok record

def checkEntry (rules : RecordRules) (entry : String × Json) : Except RecordFault Unit :=
  (rules.checkValue entry.1 entry.2).mapError .value

/-- A new record, checked and completed. -/
def newRecord (rules : RecordRules) (record : Record) : Except RecordFault Record := do
  record.entries.forM rules.checkEntry
  rules.checkEndpoints record
  rules.model.attributes.values.foldlM rules.complete record

def newRecordAt (rules : RecordRules) (entry : Json × Nat) : Except RecordFault Record :=
  match entry.1 with
  | .obj record => rules.newRecord record
  | value => .error (.notRecordAt entry.2 value)

def newRecords (rules : RecordRules) (records : List Json) : Except RecordFault (List Record) :=
  records.zipIdx.mapM rules.newRecordAt

def checkSetting (rules : RecordRules) (entry : String × Json) : Except ValuesFault Unit := do
  if rules.model.isCollection entry.1 then .error (.toMany entry.1)
  (rules.checkValue entry.1 entry.2).mapError .value
  if entry.2.isNull && (rules.model.attribute? entry.1).any (·.required) then
    .error (.requiredNull entry.1)

def touch (rules : RecordRules) (values : Record) (a : Attribute) : Record :=
  if a.autoUpdatedAt && !values.contains a.name then values.insert a.name (rules.timestamp a)
  else values

/-- Values to set: at least one, checked, with the time of the update added. -/
def valuesToSet (rules : RecordRules) : Option Json → Except ValuesFault Record
  | some (.obj values) =>
      if values.isEmpty then .error (.notValues (some (.obj values)))
      else do
        values.entries.forM rules.checkSetting
        .ok (rules.model.attributes.values.foldl rules.touch values)
  | given => .error (.notValues given)

end RecordRules

end GraphRecords
