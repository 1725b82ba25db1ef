import GraphRecords.Proofs.Json.Equality
import GraphRecords.Proofs.Json.Order
import GraphRecords.Proofs.Number.Nearest
import GraphRecords.Query.Filter

/-!
# Ranges

The modifiers `>`, `>=`, `<` and `<=` go by the comparison of values, which has more values alike
than are equal. So the bounds of a range count values in that are neither beyond the operand nor
equal to it: those of another kind, and numbers that are nearest to the same double.
-/

namespace GraphRecords

private theorem Binary64.compare_eq_iff {x y : Binary64} : x.compare y = .eq ↔ x.same y = true := by
  unfold Binary64.compare Binary64.same
  rw [compare_eq_iff_eq, beq_iff_eq]

namespace Json

private theorem compare_of_beq {a b : Json} (h : (a == b) = true) : a.compare b = .eq := by
  change a.same b = true at h
  cases a with
  | num x =>
    cases b with
    | num y =>
      change x.toBinary64.compare y.toBinary64 = .eq
      rw [Binary64.compare_eq_iff]
      cases x <;> cases y <;> simp_all [same, Number.same, Binary64.same, Number.toBinary64]
    | null | bool | str | arr | obj => cases h
  | str => cases b <;> simp_all [same, compare]
  | bool => cases b <;> simp_all [same, compare]
  | null | arr | obj => cases b <;> first | rfl | cases h

/-- A text, a number or a truth value. -/
def isScalar (value : Json) : Bool := value.isString || value.isNumber || value.isBool

/-- The comparison tells the two numbers apart, unless they are equal: two doubles always, other
numbers unless they are nearest to one double. -/
def NumbersApart : Number → Number → Prop
  | .float _, .float _ => True
  | .int a, .int b => a = b ∨ (Number.int a).toBinary64.same (Number.int b).toBinary64 = false
  | a, b => a.toBinary64.same b.toBinary64 = false

/-- The comparison tells the value from the operand, unless they are equal: null from every one,
other values from those of their kind. -/
def ToldApart : Json → Json → Prop
  | .null, _ => True
  | .num a, .num b => NumbersApart a b
  | .str _, .str _ | .bool _, .bool _ => True
  | _, _ => False

private theorem numbersApart_iff (a b : Number) :
    NumbersApart a b ↔ (a.toBinary64.compare b.toBinary64 = .eq → a.same b = true) := by
  rw [Binary64.compare_eq_iff]
  cases a with
  | int x =>
    cases b with
    | int y =>
      simp only [NumbersApart, Number.same, beq_iff_eq]
      rw [or_comm, ← Bool.not_eq_true, ← imp_iff_not_or]
    | float y => simp [NumbersApart, Number.same]
  | float x =>
    cases b with
    | int y => simp [NumbersApart, Number.same]
    | float y => simp [NumbersApart, Number.same, Number.toBinary64]

private theorem toldApart_iff {value operand : Json} (h : operand.isScalar = true) :
    ToldApart value operand ↔ (value.compare operand = .eq → (value == operand) = true) := by
  cases operand with
  | num b =>
    cases value with
    | num a => exact numbersApart_iff a b
    | null | bool | str | arr | obj => simp [ToldApart, compare, BEq.beq, same]
  | str b =>
    cases value with
    | null | bool | num | str | arr | obj => simp [ToldApart, compare, BEq.beq, same]
  | bool b =>
    cases value with
    | null | bool | num | str | arr | obj => simp [ToldApart, compare, BEq.beq, same]
  | null | arr | obj => cases h

end Json

namespace Filter

section Bounds

variable (value operand : Json)

private theorem satisfies_modifier (name : String) :
    satisfies value (Json.object [(name, operand)]) = modifierHolds value name operand := by
  change (modifierHolds value name operand && true) = _
  rw [Bool.and_true]

private theorem satisfies_above :
    satisfies value (Json.object [(">", operand)]) = true ↔ value.compare operand = .gt := by
  rw [satisfies_modifier]
  exact beq_iff_eq

private theorem satisfies_below :
    satisfies value (Json.object [("<", operand)]) = true ↔ value.compare operand = .lt := by
  rw [satisfies_modifier]
  exact beq_iff_eq

private theorem satisfies_atLeast :
    satisfies value (Json.object [(">=", operand)]) = true ↔ value.compare operand ≠ .lt := by
  rw [satisfies_modifier]
  exact bne_iff_ne

private theorem satisfies_atMost :
    satisfies value (Json.object [("<=", operand)]) = true ↔ value.compare operand ≠ .gt := by
  rw [satisfies_modifier]
  exact bne_iff_ne

end Bounds

/-- A value is in a range with its bound exactly when it is beyond the bound or equal to it, if the
comparison tells it from the bound, and only then. Any other value is in the ranges to both sides
of the bound that include it and in neither of the others, and is not equal to it. -/
theorem satisfies_bound_iff (value operand : Json) (h : operand.isScalar = true) :
    ((satisfies value (Json.object [(">=", operand)]) = true ↔
        satisfies value (Json.object [(">", operand)]) = true ∨ (value == operand) = true) ↔
      Json.ToldApart value operand) ∧
    ((satisfies value (Json.object [("<=", operand)]) = true ↔
        satisfies value (Json.object [("<", operand)]) = true ∨ (value == operand) = true) ↔
      Json.ToldApart value operand) ∧
    (¬ Json.ToldApart value operand →
      (value == operand) = false ∧
        satisfies value (Json.object [(">=", operand)]) = true ∧
        satisfies value (Json.object [("<=", operand)]) = true ∧
        satisfies value (Json.object [(">", operand)]) = false ∧
        satisfies value (Json.object [("<", operand)]) = false) := by
  have hequal := @Json.compare_of_beq value operand
  simp only [← Bool.not_eq_true, satisfies_above, satisfies_below, satisfies_atLeast,
    satisfies_atMost, Json.toldApart_iff h]
  cases hc : value.compare operand with
  | eq => simp
  | lt | gt =>
    rw [hc] at hequal
    simpa using hequal

/-- Two integers past `2 ^ 53` that are two apart have doubles of their own to be told by. -/
theorem satisfies_bound_iff_odd_integers :
    (Json.int 9007199254740995).isScalar = true ∧
      (satisfies (Json.int 9007199254740993) (Json.object [(">=", Json.int 9007199254740995)]) =
          true ↔
        satisfies (Json.int 9007199254740993) (Json.object [(">", Json.int 9007199254740995)]) =
            true ∨
          (Json.int 9007199254740993 == Json.int 9007199254740995) = true) := by
  obtain ⟨hiff, _⟩ :=
    satisfies_bound_iff (Json.int 9007199254740993) (Json.int 9007199254740995) rfl
  refine ⟨rfl, hiff.mpr (.inr ?_)⟩
  decide +kernel

/-- A text is at least a number, though it is neither above it nor equal to it. -/
theorem text_in_number_range :
    ¬ ∀ value operand : Json, operand.isScalar = true →
      (satisfies value (Json.object [(">=", operand)]) = true ↔
        satisfies value (Json.object [(">", operand)]) = true ∨ (value == operand) = true) ∧
      (satisfies value (Json.object [("<=", operand)]) = true ↔
        satisfies value (Json.object [("<", operand)]) = true ∨ (value == operand) = true) := by
  intro h
  obtain ⟨hiff, _⟩ := h (.str "x") (Json.int 5) rfl
  exact absurd (hiff.mp rfl) (by decide)

/-- A range takes in no integer from the other side of its bound unless it includes the bound, and
then leaves out none on its own side. All four ranges are right about an integer exactly when it is
the bound or the two are nearest to different doubles, and so always when one of them is below
`2 ^ 53` in absolute value. -/
theorem satisfies_integer_bound_iff (a b : Int) :
    let within (modifier : String) :=
      satisfies (Json.int a) (Json.object [(modifier, Json.int b)]) = true
    ((within ">" → a > b) ∧ (a ≥ b → within ">=") ∧ (within "<" → a < b) ∧
      (a ≤ b → within "<=")) ∧
    (((within ">" ↔ a > b) ∧ (within ">=" ↔ a ≥ b) ∧ (within "<" ↔ a < b) ∧
        (within "<=" ↔ a ≤ b)) ↔
      a = b ∨ (Binary64.ofInt a).same (Binary64.ofInt b) = false) ∧
    (a.natAbs < 2 ^ 53 ∨ b.natAbs < 2 ^ 53 →
      a = b ∨ (Binary64.ofInt a).same (Binary64.ofInt b) = false) := by
  intro within
  have hcompare : (Json.int a).compare (Json.int b) =
      Ord.compare (Binary64.ofInt a).key (Binary64.ofInt b).key := rfl
  have hinj : a.natAbs < 2 ^ 53 ∨ b.natAbs < 2 ^ 53 →
      (Binary64.ofInt a).key = (Binary64.ofInt b).key → a = b := by
    rintro (ha | hb) hkey
    · exact Binary64.ofInt_inj ha hkey
    · exact (Binary64.ofInt_inj hb hkey.symm).symm
  have hup : a ≤ b → (Binary64.ofInt a).key ≤ (Binary64.ofInt b).key := Binary64.key_ofInt_mono
  have hdown : b ≤ a → (Binary64.ofInt b).key ≤ (Binary64.ofInt a).key := Binary64.key_ofInt_mono
  simp only [within, satisfies_above, satisfies_below, satisfies_atLeast, satisfies_atMost,
    hcompare, Binary64.same, beq_eq_false_iff_ne, ne_eq, compare_lt_iff_lt, compare_gt_iff_gt]
  generalize (Binary64.ofInt a).key = x at *
  generalize (Binary64.ofInt b).key = y at *
  refine ⟨⟨by omega, by omega, by omega, by omega⟩, ?_, fun hsmall => ?_⟩
  · omega
  · by_cases hkey : x = y
    · exact .inl (hinj hsmall hkey)
    · exact .inr hkey

/-- The integer after `2 ^ 53` is rounded to it, and so is not above it. -/
theorem integer_not_above_neighbour :
    ¬ ∀ a b : Int, (-2 ^ 63 ≤ a ∧ a < 2 ^ 64) → (-2 ^ 63 ≤ b ∧ b < 2 ^ 64) →
      (satisfies (Json.int a) (Json.object [(">", Json.int b)]) = true ↔ a > b) ∧
      (satisfies (Json.int a) (Json.object [(">=", Json.int b)]) = true ↔ a ≥ b) ∧
      (satisfies (Json.int a) (Json.object [("<", Json.int b)]) = true ↔ a < b) ∧
      (satisfies (Json.int a) (Json.object [("<=", Json.int b)]) = true ↔ a ≤ b) := by
  intro h
  obtain ⟨habove, _⟩ := h 9007199254740993 9007199254740992 (by decide) (by decide)
  have hwithin := (satisfies_above _ _).mp (habove.mpr (by decide))
  exact absurd hwithin (by decide +kernel)

end Filter

end GraphRecords
