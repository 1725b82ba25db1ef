import GraphRecords.Json.Order

/-!
# Comparison of values

Comparing two values the other way round gives the opposite answer. Among values of one kind, null
standing in for any, the comparison is a total preorder. Values of different kinds compare alike,
so that it is none among all values: a text compares like two numbers that do not.
-/

namespace GraphRecords

instance : Std.TransCmp Binary64.compare := inferInstanceAs (Std.TransCmp (compareOn Binary64.key))

namespace Json

/-- The kinds of values, of which only one and the same are told apart by comparing them. -/
inductive Kind where
  | number
  | text
  | truth
  | composite

/-- The kind of a value; null is of none. -/
def kind? : Json → Option Kind
  | .null => none
  | .bool _ => some .truth
  | .num _ => some .number
  | .str _ => some .text
  | .arr _ | .obj _ => some .composite

/-- The value is null or of that kind. -/
def IsOf (kind : Kind) (value : Json) : Prop := value = .null ∨ value.kind? = some kind

theorem compare_eq_swap (a b : Json) : a.compare b = (b.compare a).swap := by
  cases a with
  | num x =>
    cases b with
    | num y => exact @Std.OrientedCmp.eq_swap _ Binary64.compare _ x.toBinary64 y.toBinary64
    | null | bool | str | arr | obj => rfl
  | str x =>
    cases b with
    | str y => exact @Std.OrientedOrd.eq_swap _ _ _ x y
    | null | bool | num | arr | obj => rfl
  | bool x =>
    cases b with
    | bool y => exact @Std.OrientedOrd.eq_swap _ _ _ x y
    | null | num | str | arr | obj => rfl
  | null | arr | obj => cases b <;> rfl

private theorem isLE_null_compare (value : Json) : (null.compare value).isLE = true := by
  cases value <;> rfl

private theorem eq_null_of_isLE {value : Json} (h : (value.compare null).isLE = true) :
    value = null := by
  cases value with
  | null => rfl
  | bool | num | str | arr | obj => cases h

private theorem compare_of_composite {a b : Json} (ha : a.kind? = some .composite)
    (hb : b.kind? = some .composite) : a.compare b = .eq := by
  cases a with
  | arr | obj => cases b <;> first | rfl | cases hb
  | null | bool | num | str => cases ha

private theorem isLE_trans_of_kind {a b c : Json} (hab : a.kind? = b.kind?)
    (hbc : b.kind? = c.kind?) (h : (a.compare b).isLE = true) (h' : (b.compare c).isLE = true) :
    (a.compare c).isLE = true := by
  cases b with
  | null =>
    rw [eq_null_of_isLE h]
    exact isLE_null_compare c
  | num y =>
    cases a <;> cases hab
    cases c <;> cases hbc
    exact @Std.TransCmp.isLE_trans _ Binary64.compare _ _ y.toBinary64 _ h h'
  | str y =>
    cases a <;> cases hab
    cases c <;> cases hbc
    exact @Std.TransOrd.isLE_trans _ _ _ _ y _ h h'
  | bool y =>
    cases a <;> cases hab
    cases c <;> cases hbc
    exact @Std.TransOrd.isLE_trans _ _ _ _ y _ h h'
  | arr | obj =>
    rw [compare_of_composite hab hbc.symm]
    rfl

/-- Among null and the values of one kind, what stands above another stands above all below it. -/
theorem isLE_trans {kind : Kind} {a b c : Json} (ha : a.IsOf kind) (hb : b.IsOf kind)
    (hc : c.IsOf kind) (hab : (a.compare b).isLE = true) (hbc : (b.compare c).isLE = true) :
    (a.compare c).isLE = true := by
  rcases ha with rfl | ha
  · exact isLE_null_compare c
  · rcases hb with rfl | hb
    · rw [eq_null_of_isLE hab]
      exact isLE_null_compare c
    · rcases hc with rfl | hc
      · rw [eq_null_of_isLE hbc] at hb
        cases hb
      · exact isLE_trans_of_kind (ha.trans hb.symm) (hb.trans hc.symm) hab hbc

end Json

end GraphRecords
