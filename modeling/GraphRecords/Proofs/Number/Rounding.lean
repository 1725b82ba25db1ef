import GraphRecords.Number.Shortest
import Mathlib.Algebra.Order.Field.Power
import Mathlib.Data.Rat.Cast.Order
import Mathlib.Tactic.FieldSimp
import Mathlib.Tactic.Linarith
import Mathlib.Tactic.NormNum.Pow
import Mathlib.Tactic.Positivity
import Mathlib.Tactic.Ring

/-!
# Decimals that round to a double

The reals that round to one absolute value are an interval, the intervals of neighbours meet in
one point, and of the two only one has that point. So a decimal rounds to one absolute value, and
the shortest decimal of a double rounds to that of the double.
-/

namespace GraphRecords.Binary64

/-- The significand and the exponent of the absolute value that has this magnitude. -/
def partsAt (magnitude : Nat) : Nat × Int :=
  if magnitude / leadingBit = 0 then (magnitude % leadingBit, -1074)
  else (leadingBit + magnitude % leadingBit, ((magnitude / leadingBit : Nat) : Int) - 1075)

theorem parts_eq_partsAt (x : Binary64) : x.parts = partsAt x.magnitude := rfl

def intervalAt (magnitude : Nat) : Interval :=
  interval (partsAt magnitude).1 (partsAt magnitude).2

/-- A quarter of the last place. -/
def quarterAt (magnitude : Nat) : ℚ := 2 ^ ((partsAt magnitude).2 - 2)

/-- Where the interval of this magnitude starts. -/
def lower (magnitude : Nat) : ℚ := (intervalAt magnitude).low * quarterAt magnitude

/-- Where the interval of this magnitude ends. -/
def upper (magnitude : Nat) : ℚ := (intervalAt magnitude).high * quarterAt magnitude

/-- The number rounds to the absolute value of this magnitude. -/
def RoundsTo (magnitude : Nat) (q : ℚ) : Prop :=
  if (intervalAt magnitude).closed then lower magnitude ≤ q ∧ q ≤ upper magnitude
  else lower magnitude < q ∧ q < upper magnitude

theorem partsAt_bounds (magnitude : Nat) :
    (partsAt magnitude).1 < 2 * leadingBit ∧ -1074 ≤ (partsAt magnitude).2 ∧
      ((partsAt magnitude).1 < leadingBit → (partsAt magnitude).2 = -1074) := by
  unfold partsAt leadingBit
  split
  · exact ⟨by omega, le_rfl, fun _ => rfl⟩
  · exact ⟨by omega, by omega, fun h => by omega⟩

/-- The next absolute value is one last place further, or it starts the next power of two. -/
theorem partsAt_succ (magnitude : Nat) :
    partsAt (magnitude + 1) = ((partsAt magnitude).1 + 1, (partsAt magnitude).2) ∨
      (partsAt magnitude).1 + 1 = 2 * leadingBit ∧
        partsAt (magnitude + 1) = (leadingBit, (partsAt magnitude).2 + 1) := by
  have hsplit := Nat.div_add_mod magnitude leadingBit
  unfold partsAt leadingBit at *
  by_cases hlast : magnitude % 0x10000000000000 + 1 = 0x10000000000000
  · have hdiv : (magnitude + 1) / 0x10000000000000 = magnitude / 0x10000000000000 + 1 := by omega
    have hmod : (magnitude + 1) % 0x10000000000000 = 0 := by omega
    rw [hdiv, hmod, if_neg (Nat.succ_ne_zero _)]
    split
    · rename_i hsub
      left
      rw [hsub, Nat.add_zero]
      exact Prod.ext hlast.symm rfl
    · right
      refine ⟨by omega, Prod.ext rfl ?_⟩
      dsimp only
      omega
  · have hdiv : (magnitude + 1) / 0x10000000000000 = magnitude / 0x10000000000000 := by omega
    have hmod : (magnitude + 1) % 0x10000000000000 = magnitude % 0x10000000000000 + 1 := by omega
    left
    rw [hdiv, hmod]
    split
    · rfl
    · rw [Nat.add_assoc]

private theorem closed_intervalAt_succ (magnitude : Nat) :
    (intervalAt (magnitude + 1)).closed = !(intervalAt magnitude).closed := by
  have hparity : (partsAt (magnitude + 1)).1 % 2 ≠ (partsAt magnitude).1 % 2 := by
    rcases partsAt_succ magnitude with h | ⟨hlast, h⟩
    · rw [h]
      omega
    · rw [h]
      unfold leadingBit at *
      omega
  rw [Bool.eq_not]
  intro h
  have heven := decide_eq_decide.mp h
  omega

private theorem upper_eq_lower_succ (magnitude : Nat) :
    upper magnitude = lower (magnitude + 1) := by
  obtain ⟨_, hleast, hsub⟩ := partsAt_bounds magnitude
  unfold upper lower quarterAt intervalAt interval
  rcases partsAt_succ magnitude with h | ⟨hlast, h⟩
  · rw [h]
    have hlow : ¬ ((partsAt magnitude).1 + 1 = leadingBit && -1074 < (partsAt magnitude).2) := by
      simp only [Bool.and_eq_true, decide_eq_true_eq, not_and]
      omega
    rw [if_neg hlow]
    congr 2
  · rw [h]
    have hhigh : (partsAt magnitude).1 = 2 * leadingBit - 1 := by omega
    have hlow : (leadingBit = leadingBit && -1074 < (partsAt magnitude).2 + 1) := by
      simp only [decide_true, Bool.true_and, decide_eq_true_eq]
      omega
    have hscale : (2 : ℚ) ^ ((partsAt magnitude).2 + 1 - 2) =
        2 * 2 ^ ((partsAt magnitude).2 - 2) := by
      rw [show (partsAt magnitude).2 + 1 - 2 = 1 + ((partsAt magnitude).2 - 2) by ring,
        zpow_add₀ (by norm_num), zpow_one]
    rw [if_pos hlow, hscale, hhigh]
    unfold leadingBit
    push_cast
    ring

private theorem lower_lt_upper (magnitude : Nat) : lower magnitude < upper magnitude := by
  have hquarter : 0 < quarterAt magnitude := zpow_pos (by norm_num) _
  refine mul_lt_mul_of_pos_right ?_ hquarter
  have hends : (intervalAt magnitude).low < (intervalAt magnitude).high := by
    unfold intervalAt interval
    dsimp only
    split <;> omega
  exact_mod_cast hends

theorem upper_le_lower {m n : Nat} (h : m < n) : upper m ≤ lower n := by
  induction n, h using Nat.le_induction with
  | base => exact (upper_eq_lower_succ m).le
  | succ n _ ih => exact ih.trans ((lower_lt_upper n).le.trans (upper_eq_lower_succ n).le)

theorem RoundsTo.le {magnitude : Nat} {q : ℚ} (h : RoundsTo magnitude q) :
    lower magnitude ≤ q ∧ q ≤ upper magnitude := by
  unfold RoundsTo at h
  split at h
  · exact h
  · exact ⟨h.1.le, h.2.le⟩

/-- Of two neighbours only one has the point where their intervals meet. -/
theorem RoundsTo.not_lt {m n : Nat} {q : ℚ} (hm : RoundsTo m q) (hn : RoundsTo n q) : ¬ m < n := by
  intro hlt
  have hmeet : upper m = q ∧ lower n = q := by
    have hends := upper_le_lower hlt
    exact ⟨le_antisymm (hends.trans hn.le.1) hm.le.2, le_antisymm hn.le.1 (hm.le.2.trans hends)⟩
  rcases Nat.lt_or_ge (m + 1) n with hfar | hnear
  · have hnext := upper_le_lower hfar
    have hstart := lower_lt_upper (m + 1)
    rw [← upper_eq_lower_succ m] at hstart
    exact absurd (hstart.trans_le hnext) (by rw [hmeet.1, hmeet.2]; exact lt_irrefl q)
  · obtain rfl : n = m + 1 := by omega
    unfold RoundsTo at hm hn
    rw [closed_intervalAt_succ] at hn
    cases hclosed : (intervalAt m).closed with
    | true =>
      simp only [hclosed, Bool.not_true, Bool.false_eq_true, if_false] at hn
      exact absurd hn.1 (by rw [hmeet.2]; exact lt_irrefl q)
    | false =>
      simp only [hclosed, Bool.false_eq_true, if_false] at hm
      exact absurd hm.2 (by rw [hmeet.1]; exact lt_irrefl q)

/-- A number rounds to one absolute value. -/
theorem RoundsTo.unique {m n : Nat} {q : ℚ} (hm : RoundsTo m q) (hn : RoundsTo n q) : m = n :=
  le_antisymm (Nat.le_of_not_lt (hn.not_lt hm)) (Nat.le_of_not_lt (hm.not_lt hn))

end GraphRecords.Binary64
