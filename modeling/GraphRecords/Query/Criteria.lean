import GraphRecords.Query.Filter
import GraphRecords.Text.Blank

/-!
# Criteria

Criteria say which records a call is about and how they are paged, sorted and projected. Raw
criteria are a dictionary of clauses, a bare filter, or primary key values; all become one form.
-/

namespace GraphRecords

inductive Direction where
  | ascending
  | descending
  deriving Repr, DecidableEq, Inhabited

namespace Direction

def text : Direction → String
  | ascending => "ASC"
  | descending => "DESC"

/-- The ASCII letters of a direction word may be of either case. -/
def ofWord? (word : String) : Option Direction :=
  let upper := word.toList.map Char.toUpper
  if upper = "ASC".toList then some ascending
  else if upper = "DESC".toList then some descending
  else none

def ofJson? : Json → Option Direction
  | .str word => ofWord? word
  | .num (.int 1) => some ascending
  | .num (.int (-1)) => some descending
  | _ => none

end Direction

structure SortKey where
  attributeName : String
  direction : Direction
  deriving Repr, DecidableEq

structure Criteria where
  filter : Record := .empty
  limit : Option Nat := none
  skip : Nat := 0
  sort : List SortKey := []
  selected : Option (List String) := none
  omitted : List String := []
  bindings : Option Record := none
  deriving Repr, Inhabited

namespace Criteria

def clauses : List String := ["where", "limit", "skip", "sort", "select", "omit", "let"]

def isClause (key : String) : Bool := clauses.contains key

/-- The dictionary is one of clauses, not a bare filter. -/
def hasClause (fields : Record) : Bool := fields.keys.any isClause

/-- The clauses that a method rules out, in the order in which they are looked for. -/
def forbiddenClauses : Method → List String
  | .findOne => ["limit", "skip", "sort"]
  | .count => ["select", "omit"]
  | .update | .destroy => ["limit", "skip", "sort", "select", "omit"]
  | _ => []

def checkClauses (method : Method) (fields : Record) : Except CriteriaFault Unit :=
  match fields.keys.find? (fun key => !isClause key) with
  | some clause => .error (.unknownClause clause)
  | none =>
      match (forbiddenClauses method).find? fields.contains with
      | some clause => .error (.clauseNotAllowed clause method)
      | none => .ok ()

def isKeyValue (value : Json) : Bool := value.isString || value.isNumber

/-- The filter that a primary key value, or a list of them, stands for. -/
def keyFilter (model : Model) : Json → Except CriteriaFault Record
  | .arr keys =>
      if keys.all isKeyValue then
        .ok (Dict.empty.insert model.primaryKey (Json.object [("in", .arr keys)]))
      else .error .keysNotScalar
  | key =>
      if isKeyValue key then .ok (Dict.empty.insert model.primaryKey key)
      else .error (.notCriteria key)

def readFilter (model : Model) : Json → Except CriteriaFault Record
  | .null => .ok .empty
  | .obj filter => do
      Filter.check model filter
      .ok filter
  | keys => keyFilter model keys

def readNatural (clause : String) (value : Json) : Except CriteriaFault Nat :=
  match value.toNat? with
  | some n => .ok n
  | none => .error (.notNatural clause value)

def checkSortable (model : Model) (name : String) : Except CriteriaFault Unit :=
  if !model.recognizes name || model.isCollection name then .error (.notSortable name)
  else .ok ()

/-- Reads `attribute`, `attribute ASC` or `attribute DESC`. -/
def readSortExpression (model : Model) (expression : String) : Except CriteriaFault SortKey :=
  match words expression with
  | [] => .error .sortEmpty
  | [name] => do
      checkSortable model name
      .ok ⟨name, .ascending⟩
  | name :: word :: rest =>
      match Direction.ofWord? word with
      | none => .error (.unknownDirectionWord word)
      | some direction =>
          if rest.isEmpty then do
            checkSortable model name
            .ok ⟨name, direction⟩
          else .error (.sortMalformed expression)

def readSortEntry (model : Model) (entry : String × Json) : Except CriteriaFault SortKey := do
  checkSortable model entry.1
  match Direction.ofJson? entry.2 with
  | some direction => .ok ⟨entry.1, direction⟩
  | none => .error (.unknownDirection entry.2 entry.1)

/-- Reads what may stand in a list of sort keys. -/
def readSortItem (model : Model) : Json → Except CriteriaFault (List SortKey)
  | .null => .ok []
  | .str expression => do
      let key ← readSortExpression model expression
      .ok [key]
  | .obj fields => fields.entries.mapM (readSortEntry model)
  | .arr _ => .error .sortNested
  | value => .error (.notSort value)

def readSort (model : Model) : Json → Except CriteriaFault (List SortKey)
  | .arr items => do
      let keys ← items.mapM (readSortItem model)
      .ok keys.flatten
  | value => readSortItem model value

def readName (clause : String) (model : Model) : Json → Except CriteriaFault String
  | .str name =>
      if name ≠ "*" ∧ !model.recognizes name then .error (.unknownName name clause)
      else .ok name
  | _ => .error (.nameNotString clause)

def readNames (clause : String) (model : Model) : Json → Except CriteriaFault (List String)
  | .arr entries => entries.mapM (readName clause model)
  | _ => .error (.namesNotArray clause)

def readBindings : Json → Except CriteriaFault (Option Record)
  | .obj bindings => .ok (some bindings)
  | .null => .ok none
  | value => .error (.letNotDictionary value)

/-- Reads one clause if it is there. -/
def readClause {α : Type} (fields : Record) (clause : String) (default : α)
    (read : Json → Except CriteriaFault α) : Except CriteriaFault α :=
  match fields.get? clause with
  | some value => read value
  | none => .ok default

def readSome {α : Type} (read : Json → Except CriteriaFault α) (value : Json) :
    Except CriteriaFault (Option α) := (read value).map some

/-- Reads a dictionary of clauses, in order of their names. -/
def ofClauses (method : Method) (model : Model) (fields : Record) :
    Except CriteriaFault Criteria := do
  checkClauses method fields
  let bindings ← readClause fields "let" none readBindings
  let limit ← readClause fields "limit" none (readSome (readNatural "limit"))
  let omitted ← readClause fields "omit" [] (readNames "omit" model)
  let selected ← readClause fields "select" none (readSome (readNames "select" model))
  let skip ← readClause fields "skip" 0 (readNatural "skip")
  let sort ← readClause fields "sort" [] (readSort model)
  let filter ← readClause fields "where" .empty (readFilter model)
  if selected.isSome && !omitted.isEmpty then .error .selectWithOmit
  else .ok { filter, limit, skip, sort, selected, omitted, bindings }

/-- The one form of raw criteria. A dictionary with any clause name is one of clauses. -/
def normalize (method : Method) (model : Model) : Option Json → Except CriteriaFault Criteria
  | none => .ok {}
  | some (.obj fields) =>
      if hasClause fields then ofClauses method model fields
      else do
        let filter ← readFilter model (.obj fields)
        .ok { filter }
  | some value => do
      let filter ← readFilter model value
      .ok { filter }

/-- The criteria are seen, without looking at any record, to ask for none. -/
def isNever (criteria : Criteria) : Bool :=
  criteria.limit == some 0 || Filter.isNever criteria.filter

/-- Adds the bindings of the model; those of the call win key by key. -/
def mergeBindings (modelBindings : Option Record) (criteria : Criteria) : Criteria :=
  match modelBindings with
  | none => criteria
  | some bindings =>
      { criteria with bindings := some (bindings.override (criteria.bindings.getD .empty)) }

def SortKey.lower (columns : Columns) (key : SortKey) : Json :=
  Json.object [(columns.column key.attributeName, .str key.direction.text)]

/-- The criteria in column names, as adapters take them. Clauses that say nothing are left
out, except the filter. -/
def lower (columns : Columns) (criteria : Criteria) : Json :=
  let sort := criteria.sort.map (SortKey.lower columns)
  let omitted := columns.lowerNames criteria.omitted
  let selected := criteria.selected.map columns.lowerNames
  .obj (Dict.empty
    |>.insert "where" (.obj (columns.lowerFilter criteria.filter))
    |>.insert? "limit" (criteria.limit.map Json.nat)
    |>.insert? "skip" (if criteria.skip = 0 then none else some (Json.nat criteria.skip))
    |>.insert? "sort" (if sort.isEmpty then none else some (.arr sort))
    |>.insert? "select" (selected.map Json.strings)
    |>.insert? "omit" (if omitted.isEmpty then none else some (Json.strings omitted))
    |>.insert? "let" (criteria.bindings.map .obj))

end Criteria

end GraphRecords
