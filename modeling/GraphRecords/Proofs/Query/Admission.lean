import GraphRecords.Proofs.Outcome
import GraphRecords.Query.RecordRules

/-!
# Values that attributes admit

What an attribute allows its value to be. The checks of the values that a caller gives let through
exactly these values.
-/

namespace GraphRecords

/-- The value refers to records of the target: to several by a list, to one by a key. -/
def Association.Takes (schema : Schema) : Association → Json → Prop
  | .collection target _ _ _, .arr members =>
      ∀ member ∈ members, schema.isPrimaryKeyValue target member
  | .collection _ _ _ _, _ => False
  | .model target, value => schema.isPrimaryKeyValue target value

instance (schema : Schema) : (association : Association) → (value : Json) →
    Decidable (association.Takes schema value)
  | .collection target _ _ _, .arr members =>
      inferInstanceAs (Decidable (∀ member ∈ members, schema.isPrimaryKeyValue target member))
  | .collection _ _ _ _, .null | .collection _ _ _ _, .bool _ | .collection _ _ _ _, .num _
  | .collection _ _ _ _, .str _ | .collection _ _ _ _, .obj _ => .isFalse id
  | .model target, value =>
      inferInstanceAs (Decidable (schema.isPrimaryKeyValue target value = true))

namespace Attribute

/-- The value, null apart, is what the attribute is declared to hold. -/
def Conforms (schema : Schema) (a : Attribute) (value : Json) : Prop :=
  match a.association with
  | some association => association.Takes schema value
  | none => ∀ type ∈ a.valueType, type.accepts value

instance (schema : Schema) (a : Attribute) (value : Json) : Decidable (a.Conforms schema value) :=
  match h : a.association with
  | some association => decidable_of_iff (association.Takes schema value) (by rw [Conforms, h])
  | none => decidable_of_iff (∀ type ∈ a.valueType, type.accepts value) (by rw [Conforms, h])

/-- The value may stand under the attribute. -/
structure Admits (schema : Schema) (a : Attribute) (value : Json) : Prop where
  required (h : a.required = true) : value.isNull = false
  null (h : value.isNull = true) : a.acceptsNull = true
  conforms (h : value.isNull = false) : a.Conforms schema value

instance (schema : Schema) (a : Attribute) (value : Json) : Decidable (a.Admits schema value) :=
  decidable_of_iff ((a.required = true → value.isNull = false) ∧
      (value.isNull = true → a.acceptsNull = true) ∧
      (value.isNull = false → a.Conforms schema value))
    ⟨fun h => ⟨h.1, h.2.1, h.2.2⟩, fun h => ⟨h.required, h.null, h.conforms⟩⟩

theorem admits_nil {schema : Schema} {a : Attribute} (h : a.isCollection = true) :
    a.Admits schema (.arr []) := by
  refine ⟨fun _ => rfl, nofun, fun _ => ?_⟩
  unfold isCollection at h
  unfold Conforms
  split at h
  · rename_i ha
    rw [ha]
    exact nofun
  · cases h

end Attribute

namespace RecordRules

open Outcome

variable {rules : RecordRules} {a : Attribute} {key : String} {value : Json}

private theorem checkShape_eq_ok_iff :
    rules.checkShape a key value = .ok () ↔ a.Conforms rules.schema value := by
  unfold checkShape Attribute.Conforms
  cases a.association with
  | some association =>
    cases association with
    | collection target via through dominant =>
      cases value with
      | arr members =>
        simp only [Association.Takes]
        cases hbad :
            members.find? (fun member => !rules.schema.isPrimaryKeyValue target member) with
        | some member =>
          have hmember := List.find?_some hbad
          refine ⟨nofun, fun h => ?_⟩
          rw [h member (List.mem_of_find?_eq_some hbad)] at hmember
          cases hmember
        | none =>
          refine ⟨fun _ member hm => ?_, fun _ => rfl⟩
          simpa using List.find?_eq_none.mp hbad member hm
      | null | bool | num | str | obj => exact ⟨nofun, False.elim⟩
    | model target =>
      simp only [Association.Takes]
      split
      · rename_i h
        exact ⟨fun _ => h, fun _ => rfl⟩
      · rename_i h
        exact ⟨nofun, fun ht => absurd ht h⟩
  | none =>
    cases a.valueType with
    | none => exact ⟨fun _ => nofun, fun _ => rfl⟩
    | some type =>
      simp only [Option.mem_some_iff, forall_eq']
      split
      · rename_i h
        exact ⟨fun _ => h, fun _ => rfl⟩
      · rename_i h
        exact ⟨nofun, fun ht => absurd ht h⟩

private theorem checkDeclared_eq_ok_iff : rules.checkDeclared a key value = .ok () ↔
    (value.isNull = true → a.acceptsNull = true ∨ a.required = true) ∧
      (value.isNull = false → a.Conforms rules.schema value) := by
  unfold checkDeclared
  cases value.isNull with
  | true =>
    simp only [if_true, ← Bool.or_eq_true, forall_const, reduceCtorEq, IsEmpty.forall_iff, and_true]
    split
    · rename_i h
      exact ⟨fun _ => h, fun _ => rfl⟩
    · rename_i h
      exact ⟨nofun, fun ht => absurd ht h⟩
  | false => simp [checkShape_eq_ok_iff]

/-- The check leaves it to others to refuse null for a required attribute. -/
theorem admits_iff (key : String) : a.Admits rules.schema value ↔
    rules.checkDeclared a key value = .ok () ∧ (a.required = true → value.isNull = false) := by
  rw [checkDeclared_eq_ok_iff]
  constructor
  · intro h
    exact ⟨⟨fun hnull => .inl (h.null hnull), h.conforms⟩, h.required⟩
  · rintro ⟨⟨hnull, hconforms⟩, hrequired⟩
    refine ⟨hrequired, fun hn => (hnull hn).resolve_right ?_, hconforms⟩
    intro hr
    cases hn.symm.trans (hrequired hr)

end RecordRules

end GraphRecords
