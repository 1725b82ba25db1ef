import GraphRecords.Json.Basic

/-!
# Equality of values

Equality of values identifies the two zeros of the doubles and nothing else. It is reflexive and
symmetric, and a plain value other than a double zero is equal to itself alone.
-/

namespace GraphRecords

theorem Binary64.eq_of_same {x y : Binary64} (hy : y.magnitude ≠ 0) (h : x.same y = true) :
    x = y := by
  obtain ⟨a⟩ := x
  obtain ⟨b⟩ := y
  have hkey : (⟨a⟩ : Binary64).key = (⟨b⟩ : Binary64).key := of_decide_eq_true h
  have ha := a.toNat_lt
  have hb := b.toNat_lt
  simp only [key, isNegative, magnitude, decide_eq_true_eq] at hkey hy
  have hbits : a.toNat = b.toNat := by
    unfold signBit at hkey hy
    split at hkey <;> split at hkey <;> omega
  rw [UInt64.toNat_inj.mp hbits]

private theorem Number.same_comm (a b : Number) : a.same b = b.same a := by
  cases a with
  | int => cases b <;> first | rfl | exact BEq.comm
  | float => cases b <;> first | rfl | exact BEq.comm

theorem Number.same_self (a : Number) : a.same a = true := by
  cases a with
  | int => exact BEq.rfl
  | float => exact BEq.rfl

namespace Json

mutual

private theorem same_refl : ∀ a : Json, a.same a = true
  | .null => rfl
  | .bool _ => BEq.rfl
  | .num n => n.same_self
  | .str _ => BEq.rfl
  | .arr xs => sameItems_refl xs
  | .obj ⟨xs⟩ => sameFields_refl xs

private theorem sameItems_refl : ∀ xs : List Json, sameItems xs xs = true
  | [] => rfl
  | x :: xs => by rw [sameItems, same_refl x, sameItems_refl xs, Bool.and_self]

private theorem sameFields_refl : ∀ xs : List (String × Json), sameFields xs xs = true
  | [] => rfl
  | (_, x) :: xs => by
    rw [sameFields, same_refl x, sameFields_refl xs, beq_self_eq_true, Bool.and_self, Bool.and_self]

end

theorem same_self (value : Json) : (value == value) = true := same_refl value

mutual

private theorem same_comm : ∀ a b : Json, a.same b = b.same a
  | .null, b => by cases b <;> rfl
  | .bool _, b => by cases b <;> first | rfl | exact BEq.comm
  | .num n, b => by cases b <;> first | rfl | exact n.same_comm _
  | .str _, b => by cases b <;> first | rfl | exact BEq.comm
  | .arr xs, .arr ys => sameItems_comm xs ys
  | .arr _, .null | .arr _, .bool _ | .arr _, .num _ | .arr _, .str _ | .arr _, .obj _ => rfl
  | .obj ⟨xs⟩, .obj ⟨ys⟩ => sameFields_comm xs ys
  | .obj _, .null | .obj _, .bool _ | .obj _, .num _ | .obj _, .str _ | .obj _, .arr _ => rfl

private theorem sameItems_comm : ∀ xs ys : List Json, sameItems xs ys = sameItems ys xs
  | [], ys => by cases ys <;> rfl
  | _ :: _, [] => rfl
  | x :: xs, y :: ys => by
    rw [sameItems, sameItems, same_comm x y, sameItems_comm xs ys]

private theorem sameFields_comm :
    ∀ xs ys : List (String × Json), sameFields xs ys = sameFields ys xs
  | [], ys => by cases ys <;> rfl
  | _ :: _, [] => rfl
  | (k, x) :: xs, (l, y) :: ys => by
    rw [sameFields, sameFields, same_comm x y, sameFields_comm xs ys, BEq.comm (a := k)]

end

theorem beq_comm (a b : Json) : (a == b) = (b == a) := same_comm a b

theorem isNull_of_beq {a b : Json} (h : (a == b) = true) : a.isNull = b.isNull := by
  change a.same b = true at h
  cases a with
  | null => cases b <;> first | rfl | cases h
  | bool | num | str | arr | obj => cases b <;> first | rfl | cases h

/-- Neither a list nor an object, and no double that is zero. -/
def Plain : Json → Prop
  | .null | .bool _ | .str _ | .num (.int _) => True
  | .num (.float value) => value.magnitude ≠ 0
  | .arr _ | .obj _ => False

instance : DecidablePred Plain
  | .null | .bool _ | .str _ | .num (.int _) => .isTrue trivial
  | .num (.float value) => inferInstanceAs (Decidable (value.magnitude ≠ 0))
  | .arr _ | .obj _ => .isFalse id

theorem Plain.eq_of_same {value other : Json} (hp : value.Plain)
    (h : (other == value) = true) : other = value := by
  change other.same value = true at h
  cases value with
  | null => cases other <;> first | rfl | cases h
  | bool b => cases other <;> simp_all [same]
  | str s => cases other <;> simp_all [same]
  | num n =>
    cases other with
    | num k =>
      cases n with
      | int i => cases k <;> simp_all [same, Number.same]
      | float y =>
        cases k with
        | int i => cases h
        | float x => rw [Binary64.eq_of_same hp h]
    | null | bool | str | arr | obj => cases h
  | arr | obj => cases hp

end Json

end GraphRecords
