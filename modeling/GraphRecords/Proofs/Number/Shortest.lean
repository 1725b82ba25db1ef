import GraphRecords.Proofs.Number.Rounding

/-!
# The shortest decimal rounds back

The search for digits goes to ever finer grids. It ends in time, because the last grid that it
would try is finer than the interval, and what it finds lies in the interval.
-/

namespace GraphRecords.Binary64

theorem zpow_eq_toNat_div (base : Nat) (hbase : 0 < base) (k : Int) :
    (base : ℚ) ^ k = (Nat.pow base k.toNat : ℕ) / (Nat.pow base (-k).toNat : ℕ) := by
  have hne : (base : ℚ) ≠ 0 := by positivity
  simp only [Nat.pow_eq, Nat.cast_pow]
  rw [← zpow_natCast, ← zpow_natCast, ← zpow_sub₀ hne]
  congr 1
  omega

/-- The scales of a grid, which make its comparison with an interval one of naturals. -/
def up (exponent place : Int) : Nat := Nat.pow 2 (exponent - 2).toNat * Nat.pow 10 (-place).toNat

def down (exponent place : Int) : Nat := Nat.pow 10 place.toNat * Nat.pow 2 (2 - exponent).toNat

private theorem down_pos (exponent place : Int) : 0 < down exponent place := by
  unfold down
  simp only [Nat.pow_eq]
  positivity

private theorem quarter_mul_down (exponent place : Int) :
    (2 : ℚ) ^ (exponent - 2) * down exponent place = 10 ^ place * up exponent place := by
  have htwo := zpow_eq_toNat_div 2 (by decide) (exponent - 2)
  have hten := zpow_eq_toNat_div 10 (by decide) place
  rw [show -(exponent - 2) = 2 - exponent by ring] at htwo
  push_cast at htwo hten
  rw [htwo, hten]
  unfold up down
  push_cast
  have h2 : (Nat.pow 2 (2 - exponent).toNat : ℚ) ≠ 0 := by
    simp only [Nat.pow_eq]
    positivity
  have h10 : (Nat.pow 10 (-place).toNat : ℚ) ≠ 0 := by
    simp only [Nat.pow_eq]
    positivity
  field_simp

section Grid

variable {exponent place : Int} {i : Interval}

private theorem exists_factor (exponent place : Int) : ∃ factor : ℚ, 0 < factor ∧
    (up exponent place : ℚ) = factor * 2 ^ (exponent - 2) ∧
      (down exponent place : ℚ) = factor * 10 ^ place := by
  have hten : (0 : ℚ) < 10 ^ place := zpow_pos (by norm_num) _
  have hdown : (0 : ℚ) < down exponent place := by exact_mod_cast down_pos exponent place
  have hscales := quarter_mul_down exponent place
  refine ⟨down exponent place / 10 ^ place, div_pos hdown hten, ?_, ?_⟩
  · rw [div_mul_eq_mul_div, eq_div_iff hten.ne', mul_comm (down exponent place : ℚ), hscales,
      mul_comm]
  · rw [div_mul_cancel₀ _ hten.ne']

private theorem Interval.holds_iff (i : Interval) (exponent place : Int) (digits : Nat) :
    i.holds (up exponent place) (down exponent place) digits = true ↔
      if i.closed then
        i.low * (2 : ℚ) ^ (exponent - 2) ≤ digits * 10 ^ place ∧
          digits * (10 : ℚ) ^ place ≤ i.high * 2 ^ (exponent - 2)
      else
        i.low * (2 : ℚ) ^ (exponent - 2) < digits * 10 ^ place ∧
          digits * (10 : ℚ) ^ place < i.high * 2 ^ (exponent - 2) := by
  obtain ⟨factor, hfactor, hup, hdown⟩ := exists_factor exponent place
  have hquarters (n : Nat) : ((n * up exponent place : ℕ) : ℚ) =
      factor * (n * 2 ^ (exponent - 2)) := by
    rw [Nat.cast_mul, hup]
    ring
  have hdigits : ((digits * down exponent place : ℕ) : ℚ) = factor * (digits * 10 ^ place) := by
    rw [Nat.cast_mul, hdown]
    ring
  unfold holds
  split
  · simp only [Bool.and_eq_true, decide_eq_true_eq]
    rw [← Nat.cast_le (α := ℚ), ← Nat.cast_le (α := ℚ), hquarters, hquarters, hdigits,
      mul_le_mul_iff_right₀ hfactor, mul_le_mul_iff_right₀ hfactor]
  · simp only [Bool.and_eq_true, decide_eq_true_eq]
    rw [← Nat.cast_lt (α := ℚ), ← Nat.cast_lt (α := ℚ), hquarters, hquarters, hdigits,
      mul_lt_mul_iff_right₀ hfactor, mul_lt_mul_iff_right₀ hfactor]

theorem roundQuotient_cases (num den : Nat) :
    roundQuotient num den = num / den ∨ roundQuotient num den = num / den + 1 := by
  unfold roundQuotient
  dsimp only
  split
  · exact .inl rfl
  · split
    · exact .inr rfl
    · omega

private theorem Interval.onGrid_eq (i : Interval) (exponent place : Int) :
    i.onGrid exponent place =
      let floor := i.centre * up exponent place / down exponent place
      match i.holds (up exponent place) (down exponent place) floor,
        i.holds (up exponent place) (down exponent place) (floor + 1) with
      | true, false => some floor
      | false, true => some (floor + 1)
      | false, false => none
      | true, true => some (roundQuotient (i.centre * up exponent place) (down exponent place)) :=
  rfl

private theorem Interval.holds_of_onGrid {digits : Nat}
    (h : i.onGrid exponent place = some digits) :
    i.holds (up exponent place) (down exponent place) digits = true := by
  rw [onGrid_eq] at h
  dsimp only at h
  split at h
  · rename_i hfloor _
    cases h
    exact hfloor
  · rename_i hceiling
    cases h
    exact hceiling
  · cases h
  · rename_i hfloor hceiling
    cases h
    rcases roundQuotient_cases (i.centre * up exponent place) (down exponent place) with hq | hq
    · exact hq ▸ hfloor
    · exact hq ▸ hceiling

private theorem Interval.isSome_onGrid (hlow : i.low ≤ i.centre) (hhigh : i.high = i.centre + 2)
    (hfine : (10 : ℚ) ^ place < 2 ^ (exponent - 1)) : (i.onGrid exponent place).isSome = true := by
  have hgap : down exponent place < 2 * up exponent place := by
    obtain ⟨factor, hfactor, hup, hdown⟩ := exists_factor exponent place
    have htwo : (2 : ℚ) ^ (exponent - 1) = 2 * 2 ^ (exponent - 2) := by
      rw [show exponent - 1 = 1 + (exponent - 2) by ring, zpow_add₀ (by norm_num), zpow_one]
    rw [htwo] at hfine
    have hscaled := mul_lt_mul_of_pos_left hfine hfactor
    rw [← hdown, mul_left_comm, ← hup] at hscaled
    exact_mod_cast hscaled
  have hpos := down_pos exponent place
  let floor := i.centre * up exponent place / down exponent place
  have hbelow : i.centre * up exponent place < (floor + 1) * down exponent place := by
    rw [mul_comm (floor + 1)]
    exact Nat.lt_mul_div_succ _ hpos
  have habove : floor * down exponent place ≤ i.centre * up exponent place :=
    Nat.div_mul_le_self _ _
  have hstart : i.low * up exponent place ≤ i.centre * up exponent place :=
    Nat.mul_le_mul_right _ hlow
  have hends : i.low * up exponent place < (floor + 1) * down exponent place ∧
      (floor + 1) * down exponent place < i.high * up exponent place := by
    rw [hhigh]
    constructor
    · omega
    · rw [Nat.add_mul, Nat.add_mul]
      omega
  have hceiling : i.holds (up exponent place) (down exponent place) (floor + 1) = true := by
    unfold holds
    split
    · simp only [Bool.and_eq_true, decide_eq_true_eq]
      exact ⟨hends.1.le, hends.2.le⟩
    · simp only [Bool.and_eq_true, decide_eq_true_eq]
      exact hends
  rw [onGrid_eq]
  change (match i.holds (up exponent place) (down exponent place) floor, _ with
    | true, false => some floor | false, true => some (floor + 1) | false, false => none
    | true, true => some _ : Option Nat).isSome = true
  rw [hceiling]
  cases i.holds (up exponent place) (down exponent place) floor <;> rfl

/-- The search finds digits if the last grid it would come to is fine enough. -/
theorem Interval.search_holds (hlow : i.low ≤ i.centre) (hhigh : i.high = i.centre + 2)
    (tries : Nat) (hfine : (10 : ℚ) ^ (place - tries) < 2 ^ (exponent - 1)) :
    i.holds (up exponent (i.search exponent (tries + 1) place).2)
      (down exponent (i.search exponent (tries + 1) place).2)
      (i.search exponent (tries + 1) place).1 = true := by
  induction tries generalizing place with
  | zero =>
    have hsome := isSome_onGrid hlow hhigh (by simpa using hfine)
    obtain ⟨digits, hdigits⟩ := Option.isSome_iff_exists.mp hsome
    rw [search, hdigits]
    exact holds_of_onGrid hdigits
  | succ tries ih =>
    rw [search]
    cases hdigits : i.onGrid exponent place with
    | some digits => exact holds_of_onGrid hdigits
    | none =>
      apply ih
      rwa [show place - 1 - (tries : Int) = place - ((tries + 1 : ℕ) : Int) by push_cast; ring]

end Grid

private theorem two_zpow_le_ten_zpow (k : Nat) :
    (2 : ℚ) ^ (93 * (k : Int)) ≤ 10 ^ (28 * (k : Int)) := by
  rw [zpow_mul, zpow_mul, zpow_natCast, zpow_natCast]
  exact pow_le_pow_left₀ (by positivity) (by norm_num) k

private theorem ten_zpow_le_two_zpow (k : Nat) :
    (10 : ℚ) ^ (28 * (k : Int)) ≤ 2 ^ (94 * (k : Int)) := by
  rw [zpow_mul, zpow_mul, zpow_natCast, zpow_natCast]
  exact pow_le_pow_left₀ (by positivity) (by norm_num) k

private theorem eight_zpow_le_ten_zpow (k : Nat) : (2 : ℚ) ^ (3 * (k : Int)) ≤ 10 ^ (k : Int) := by
  rw [zpow_mul, zpow_natCast, zpow_natCast]
  exact pow_le_pow_left₀ (by positivity) (by norm_num) k

/-- A grid of twenty-nine places below the estimate is finer than half a last place. Powers of ten
are compared with powers of two by twenty-eight places at once, the rest one by one. -/
private theorem fine_enough {l exponent : Int} (hlength : l ≤ 53) (hleast : -1074 ≤ exponent)
    (hmost : exponent ≤ 972) :
    (10 : ℚ) ^ ((l + exponent) * 30103 / 100000 + 2 - 29) < 2 ^ (exponent - 1) := by
  generalize hplace : (l + exponent) * 30103 / 100000 = place
  have hblocks := Int.mul_ediv_add_emod place 28
  obtain ⟨rest, hrest⟩ := Int.eq_ofNat_of_zero_le (show 0 ≤ 27 - place % 28 by omega)
  have hsmall := eight_zpow_le_ten_zpow rest
  rcases le_or_gt 0 (place / 28) with hpos | hneg
  · obtain ⟨k, hk⟩ := Int.eq_ofNat_of_zero_le hpos
    have hlarge := ten_zpow_le_two_zpow k
    calc (10 : ℚ) ^ (place + 2 - 29) = 10 ^ (28 * (k : Int)) / 10 ^ (rest : Int) := by
          rw [← zpow_sub₀ (by norm_num)]
          congr 1
          omega
      _ ≤ 2 ^ (94 * (k : Int)) / 2 ^ (3 * (rest : Int)) := by gcongr
      _ = 2 ^ (94 * (k : Int) - 3 * rest) := (zpow_sub₀ (by norm_num) _ _).symm
      _ < 2 ^ (exponent - 1) := zpow_lt_zpow_right₀ (by norm_num) (by omega)
  · obtain ⟨k, hk⟩ := Int.eq_ofNat_of_zero_le (show 0 ≤ -(place / 28) by omega)
    have hlarge := two_zpow_le_ten_zpow k
    calc (10 : ℚ) ^ (place + 2 - 29) = (10 ^ (28 * (k : Int)) * 10 ^ (rest : Int))⁻¹ := by
          rw [← zpow_add₀ (by norm_num), ← zpow_neg]
          congr 1
          omega
      _ ≤ (2 ^ (93 * (k : Int)) * 2 ^ (3 * (rest : Int)))⁻¹ := by gcongr
      _ = 2 ^ (-(93 * (k : Int) + 3 * rest)) := by rw [zpow_neg, zpow_add₀ (by norm_num)]
      _ < 2 ^ (exponent - 1) := zpow_lt_zpow_right₀ (by norm_num) (by omega)

private theorem magnitude_lt (x : Binary64) : x.magnitude < 2048 * leadingBit := by
  have hmod := Nat.mod_lt x.bits.toNat (show 0 < signBit by decide)
  have hlimit : signBit = 2048 * leadingBit := by decide
  rw [← hlimit]
  exact hmod

private theorem partsAt_exponent_le {magnitude : Nat} (h : magnitude < 2048 * leadingBit) :
    (partsAt magnitude).2 ≤ 972 := by
  unfold partsAt leadingBit at *
  split
  · exact (by decide : (-1074 : Int) ≤ 972)
  · dsimp only
    omega

private theorem intervalAt_ends (magnitude : Nat) :
    (intervalAt magnitude).low ≤ (intervalAt magnitude).centre ∧
    (intervalAt magnitude).high = (intervalAt magnitude).centre + 2 := by
  unfold intervalAt interval
  refine ⟨?_, rfl⟩
  dsimp only
  split <;> omega

private theorem roundsTo_of_holds {magnitude digits : Nat} {place : Int}
    (h : (intervalAt magnitude).holds (up (partsAt magnitude).2 place)
      (down (partsAt magnitude).2 place) digits = true) :
    RoundsTo magnitude ((digits : ℚ) * 10 ^ place) :=
  (Interval.holds_iff (intervalAt magnitude) (partsAt magnitude).2 place digits).mp h

/-- The shortest decimal of a double rounds to its absolute value. -/
theorem roundsTo_shortest (x : Binary64) :
    RoundsTo x.magnitude ((x.shortest.1 : ℚ) * 10 ^ x.shortest.2) := by
  unfold shortest
  rw [parts_eq_partsAt]
  dsimp only
  split
  · rename_i hzero
    apply roundsTo_of_holds
    unfold Interval.holds intervalAt interval
    simp [hzero]
  · rename_i hne
    obtain ⟨hbound, hleast, _⟩ := partsAt_bounds x.magnitude
    obtain ⟨hlow, hhigh⟩ := intervalAt_ends x.magnitude
    have hlog : (partsAt x.magnitude).1.log2 < 53 := (Nat.log2_lt hne).mpr hbound
    have hfine := fine_enough (l := ((partsAt x.magnitude).1.log2 : Int) + 1) (by omega) hleast
      (partsAt_exponent_le x.magnitude_lt)
    exact roundsTo_of_holds (Interval.search_holds hlow hhigh 29 hfine)

end GraphRecords.Binary64
