import GraphRecords.Json.Basic

/-!
# Order of values

Numbers compare as doubles, texts by code point, and null stands before all other values. Values
of different types, and composite values, are all alike.
-/

namespace GraphRecords.Json

def compare : Json → Json → Ordering
  | .num a, .num b => a.toBinary64.compare b.toBinary64
  | .str a, .str b => Ord.compare a b
  | .bool a, .bool b => Ord.compare a b
  | .null, .null => .eq
  | .null, _ => .lt
  | _, .null => .gt
  | _, _ => .eq

end GraphRecords.Json
