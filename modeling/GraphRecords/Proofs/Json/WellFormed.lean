import GraphRecords.Proofs.Dict.Entries
import GraphRecords.Json.Basic

/-!
# Well-formed values

A JSON value as a reader builds it: the keys of every object in it are in order.
-/

namespace GraphRecords.Json

mutual

/-- Every object in the value has its keys in order. -/
def WellFormed : Json → Prop
  | .arr items => WellFormedItems items
  | .obj ⟨fields⟩ => (⟨fields⟩ : Record).Ordered ∧ WellFormedFields fields
  | _ => True

def WellFormedItems : List Json → Prop
  | [] => True
  | item :: rest => item.WellFormed ∧ WellFormedItems rest

def WellFormedFields : List (String × Json) → Prop
  | [] => True
  | (_, value) :: rest => value.WellFormed ∧ WellFormedFields rest

end

theorem wellFormed_of_mem {fields : List (String × Json)} (h : WellFormedFields fields)
    {entry : String × Json} (he : entry ∈ fields) : entry.2.WellFormed := by
  induction fields with
  | nil => cases he
  | cons head rest ih =>
    rcases List.mem_cons.mp he with rfl | he
    · exact h.1
    · exact ih h.2 he

end GraphRecords.Json
