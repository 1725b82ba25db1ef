import GraphRecords.Fault

/-!
# Index descriptors

An index covers attribute paths in dot notation. Options that only the adapter knows are kept
as they are.
-/

namespace GraphRecords

structure Index where
  fields : List String
  geoJson : Bool
  sparse : Option Bool
  options : Record
  deriving Repr

namespace Index

/-- The part of a path before its first dot. -/
def leadingSegment (path : String) : String :=
  String.ofList (path.toList.takeWhile (· ≠ '.'))

def readField : Json → Except IndexFault String
  | .str field => .ok field
  | entry => .error (.fieldNotString entry)

def readFields (descriptor : Record) : Except IndexFault (List String) :=
  match descriptor.get? "fields" with
  | none => .ok []
  | some (.arr entries) => entries.mapM readField
  | some _ => .error .fieldsNotArray

def readFlag (descriptor : Record) (key : String) (fault : IndexFault) :
    Except IndexFault (Option Bool) :=
  match descriptor.get? key with
  | none => .ok none
  | some (.bool value) => .ok (some value)
  | some _ => .error fault

def checkFields (known fields : List String) : Except IndexFault Unit :=
  match fields.find? (fun field => !known.contains (leadingSegment field)) with
  | none => .ok ()
  | some field => .error (.unknownAttribute (leadingSegment field))

/-- Keys that are not options. -/
def ownKeys : List String := ["fields", "geoJson", "sparse"]

def ofDescriptor (known : List String) (descriptor : Record) : Except IndexFault Index := do
  let fields ← readFields descriptor
  let geoJson ← readFlag descriptor "geoJson" .geoJsonNotFlag
  let sparse ← readFlag descriptor "sparse" .sparseNotFlag
  checkFields known fields
  .ok {
    fields, geoJson := geoJson.getD false, sparse,
    options := descriptor.filter (fun key _ => !ownKeys.contains key) }

/-- Reads a descriptor over the attributes `known`. -/
def parse (known : List String) : Json → Except IndexFault Index
  | .obj descriptor => ofDescriptor known descriptor
  | _ => .error .notDictionary

/-- What is written under an index's own keys, in order; `sparse` only where it was given. -/
def ownEntries (index : Index) : List (String × Json) :=
  [("fields", Json.strings index.fields), ("geoJson", .bool index.geoJson)] ++
    index.sparse.toList.map fun flag => ("sparse", .bool flag)

/-- All that is written of an index: its options stand behind its own keys, at the same level. -/
def toEntries (index : Index) : List (String × Json) := index.ownEntries ++ index.options.entries

/-- The descriptor of an index. An option under one of its own keys would take that one's place. -/
def toJson (index : Index) : Json := Json.object index.toEntries

end Index

end GraphRecords
