import GraphRecords.Proofs.Number.Shortest

/-!
# The double nearest to a quotient

A quotient is scaled so that its integral part is a significand, and rounded there. So it rounds to
the absolute value whose interval it lies in, and a greater quotient to none that is less. Integers
up to the 53 bits of a significand are doubles themselves.
-/

namespace GraphRecords.Binary64

private theorem roundQuotient_near (num : Nat) {den : Nat} (hden : 0 < den) :
    2 * num ≤ (2 * roundQuotient num den + 1) * den ∧
      2 * roundQuotient num den * den ≤ 2 * num + den ∧
      (roundQuotient num den % 2 = 1 →
        2 * num < (2 * roundQuotient num den + 1) * den ∧
          2 * roundQuotient num den * den < 2 * num + den) := by
  have hsplit := Nat.div_add_mod num den
  have hrest := Nat.mod_lt num hden
  unfold roundQuotient
  dsimp only
  generalize num / den = q at *
  generalize num % den = r at *
  have hbelow : (2 * q + 1) * den = 2 * (den * q) + den ∧ 2 * q * den = 2 * (den * q) := by
    constructor <;> ring
  have habove : (2 * (q + 1) + 1) * den = 2 * (den * q) + 3 * den ∧
      2 * (q + 1) * den = 2 * (den * q) + 2 * den := by
    constructor <;> ring
  split
  · rw [hbelow.1, hbelow.2]
    omega
  · split
    · rw [habove.1, habove.2]
      omega
    · rcases Nat.mod_two_eq_zero_or_one q with heven | hodd
      · simp only [heven, Nat.add_zero]
        rw [hbelow.1, hbelow.2]
        omega
      · simp only [hodd]
        rw [habove.1, habove.2]
        omega

private theorem roundQuotient_quarters (num : Nat) {den : Nat} (hden : 0 < den) :
    4 * (num / den : ℚ) ≤ 4 * roundQuotient num den + 2 ∧
      4 * (roundQuotient num den : ℚ) ≤ 4 * (num / den) + 2 ∧
      (roundQuotient num den % 2 = 1 →
        4 * (num / den : ℚ) < 4 * roundQuotient num den + 2 ∧
          4 * (roundQuotient num den : ℚ) < 4 * (num / den) + 2) := by
  have hpos : (0 : ℚ) < den := by exact_mod_cast hden
  obtain ⟨hle, hge, hodd⟩ := roundQuotient_near num hden
  generalize roundQuotient num den = r at *
  rw [← mul_div_assoc]
  refine ⟨?_, ?_, fun hr => ⟨?_, ?_⟩⟩
  · rw [div_le_iff₀ hpos]
    have hcast : (2 * num : ℚ) ≤ (2 * r + 1) * den := by exact_mod_cast hle
    linarith
  · rw [← sub_le_iff_le_add, le_div_iff₀ hpos]
    have hcast : (2 * r * den : ℚ) ≤ 2 * num + den := by exact_mod_cast hge
    linarith
  · rw [div_lt_iff₀ hpos]
    have hcast : (2 * num : ℚ) < (2 * r + 1) * den := by exact_mod_cast (hodd hr).1
    linarith
  · rw [← sub_lt_iff_lt_add, lt_div_iff₀ hpos]
    have hcast : (2 * r * den : ℚ) < 2 * num + den := by exact_mod_cast (hodd hr).2
    linarith

/-- A quotient whose integral part is a significand. Below the normal ones the last place is the
least that there is. -/
structure Scaled (num den : Nat) (exponent : Int) : Prop where
  den_pos : 0 < den
  least : -1074 ≤ exponent
  lt : num < 2 * leadingBit * den
  normal : exponent = -1074 ∨ leadingBit * den ≤ num

private theorem partsAt_magnitude {exponent : Int} {significand : Nat} (hleast : -1074 ≤ exponent)
    (hlt : significand < 2 * leadingBit)
    (hnormal : exponent = -1074 ∨ leadingBit ≤ significand) :
    partsAt ((exponent + 1074).toNat * leadingBit + significand) = (significand, exponent) := by
  unfold partsAt leadingBit at *
  split
  · refine Prod.ext ?_ ?_
    · dsimp only
      omega
    · dsimp only
      omega
  · refine Prod.ext ?_ ?_
    · dsimp only
      omega
    · dsimp only
      omega

private theorem partsAt_magnitude_carried {exponent : Int} (hleast : -1074 ≤ exponent) :
    partsAt ((exponent + 1074).toNat * leadingBit + 2 * leadingBit) =
      (leadingBit, exponent + 1) := by
  have hcarry : (exponent + 1074).toNat * leadingBit + 2 * leadingBit =
      (exponent + 1 + 1074).toNat * leadingBit + leadingBit := by
    unfold leadingBit
    omega
  rw [hcarry]
  exact partsAt_magnitude (by omega) (by decide) (.inr le_rfl)

private theorem Scaled.roundQuotient_le {num den : Nat} {exponent : Int}
    (h : Scaled num den exponent) :
    roundQuotient num den ≤ 2 * leadingBit ∧
      (exponent = -1074 ∨ leadingBit ≤ roundQuotient num den) := by
  have hdiv : num / den < 2 * leadingBit := (Nat.div_lt_iff_lt_mul h.den_pos).mpr h.lt
  rcases roundQuotient_cases num den with hr | hr
  · refine ⟨by omega, h.normal.imp_right fun hnormal => ?_⟩
    rw [hr]
    exact (Nat.le_div_iff_mul_le h.den_pos).mpr hnormal
  · refine ⟨by omega, h.normal.imp_right fun hnormal => ?_⟩
    rw [hr]
    exact ((Nat.le_div_iff_mul_le h.den_pos).mpr hnormal).trans (Nat.le_succ _)

/-- Below a power of two the interval ends a quarter of a place away, elsewhere half a place. -/
private theorem low_interval_le {significand : Nat} {exponent : Int} {quarters : ℚ}
    (hpos : 0 ≤ quarters) (hhalf : 4 * significand ≤ quarters + 2)
    (hpower : significand = leadingBit → -1074 < exponent → 4 * significand ≤ quarters + 1) :
    ((interval significand exponent).low : ℚ) ≤ quarters := by
  unfold interval
  simp only [Bool.and_eq_true, decide_eq_true_eq]
  split
  · rename_i h
    have hlow : 1 ≤ 4 * significand := by
      rw [h.1]
      decide
    have hquarter := hpower h.1 h.2
    rw [Nat.cast_sub hlow]
    push_cast
    linarith
  · rcases Nat.eq_zero_or_pos significand with rfl | hsignificand
    · simpa using hpos
    · rw [Nat.cast_sub (by omega)]
      push_cast
      linarith

private theorem roundsTo_of_partsAt {magnitude significand : Nat} {exponent : Int} {quarters : ℚ}
    (hparts : partsAt magnitude = (significand, exponent)) (hpos : 0 ≤ quarters)
    (hlow : 4 * significand ≤ quarters + 2)
    (hpower : significand = leadingBit → -1074 < exponent → 4 * significand ≤ quarters + 1)
    (hhigh : quarters ≤ 4 * significand + 2)
    (hodd : significand % 2 = 1 →
      4 * significand < quarters + 2 ∧ quarters < 4 * significand + 2) :
    RoundsTo magnitude (quarters * 2 ^ (exponent - 2)) := by
  have hquarter : (0 : ℚ) < 2 ^ (exponent - 2) := zpow_pos (by norm_num) _
  have hupper : (((interval significand exponent).high : ℕ) : ℚ) = 4 * significand + 2 := by
    unfold interval
    push_cast
    ring
  unfold RoundsTo lower upper quarterAt intervalAt
  rw [hparts, hupper]
  dsimp only
  split
  · exact ⟨mul_le_mul_of_nonneg_right (low_interval_le hpos hlow hpower) hquarter.le,
      mul_le_mul_of_nonneg_right hhigh hquarter.le⟩
  · rename_i hclosed
    have hsignificand : significand % 2 = 1 := by
      unfold interval at hclosed
      simpa using hclosed
    have hlower : (((interval significand exponent).low : ℕ) : ℚ) = 4 * significand - 2 := by
      have hne : significand ≠ leadingBit := by
        rintro rfl
        exact absurd hsignificand (by decide)
      unfold interval
      simp only [hne, decide_false, Bool.false_and, Bool.false_eq_true, if_false]
      rw [Nat.cast_sub (by omega)]
      push_cast
      ring
    obtain ⟨hbelow, habove⟩ := hodd hsignificand
    rw [hlower]
    exact ⟨mul_lt_mul_of_pos_right (by linarith) hquarter, mul_lt_mul_of_pos_right habove hquarter⟩

private theorem Scaled.roundsTo {num den : Nat} {exponent : Int} (h : Scaled num den exponent) :
    RoundsTo ((exponent + 1074).toNat * leadingBit + roundQuotient num den)
      ((num / den : ℚ) * 2 ^ exponent) := by
  obtain ⟨hmost, hnormal⟩ := h.roundQuotient_le
  obtain ⟨hle, hge, hodd⟩ := roundQuotient_quarters num h.den_pos
  have hden : (0 : ℚ) < den := by exact_mod_cast h.den_pos
  have hpos : (0 : ℚ) ≤ num / den := div_nonneg (Nat.cast_nonneg _) hden.le
  rcases Nat.lt_or_eq_of_le hmost with hlt | hcarried
  · have hquarters : (num / den : ℚ) * 2 ^ exponent = 4 * (num / den) * 2 ^ (exponent - 2) := by
      rw [zpow_sub₀ two_ne_zero, zpow_ofNat]
      ring
    rw [hquarters]
    refine roundsTo_of_partsAt (partsAt_magnitude h.least hlt hnormal) (by linarith) hge ?_ hle
      fun hr => ⟨(hodd hr).2, (hodd hr).1⟩
    intro hpower hexponent
    have hnum : leadingBit * den ≤ num := h.normal.resolve_left (by omega)
    have hfloor : (leadingBit : ℚ) ≤ num / den := by
      rw [le_div_iff₀ hden]
      exact_mod_cast hnum
    rw [hpower]
    linarith
  · -- The significand is the leading bit of the next power of two, in places twice as wide.
    have hquarters : (num / den : ℚ) * 2 ^ exponent =
        2 * (num / den) * 2 ^ (exponent + 1 - 2) := by
      rw [show exponent + 1 - 2 = exponent - 1 by ring, zpow_sub_one₀ two_ne_zero]
      ring
    have hceiling : (num / den : ℚ) < 2 * leadingBit := by
      rw [div_lt_iff₀ hden]
      exact_mod_cast h.lt
    rw [hcarried] at hge ⊢
    push_cast at hge
    rw [hquarters]
    exact roundsTo_of_partsAt (partsAt_magnitude_carried h.least) (by linarith) (by linarith)
      (fun _ _ => by linarith) (by linarith) fun hr => absurd hr (by decide)

private theorem scaleDown_ratio (num den : Nat) (exponent : Int) :
    ((scaleDown num den exponent).1 / (scaleDown num den exponent).2 : ℚ) =
      num / den * 2 ^ (-exponent) := by
  have hscale := zpow_eq_toNat_div 2 (by decide) (-exponent)
  rw [neg_neg] at hscale
  push_cast at hscale
  unfold scaleDown
  rw [hscale]
  push_cast
  rw [mul_div_mul_comm]

private theorem scaleDown_pos (num : Nat) {den : Nat} (hden : 0 < den) (exponent : Int) :
    0 < (scaleDown num den exponent).2 :=
  Nat.mul_pos hden (Nat.pow_pos (by decide))

private theorem scaled_of_ratio {num den : Nat} {exponent : Int} (hden : 0 < den)
    (hleast : -1074 ≤ exponent) (hlt : (num / den : ℚ) < 2 * leadingBit)
    (hnormal : exponent = -1074 ∨ (leadingBit : ℚ) ≤ num / den) : Scaled num den exponent where
  den_pos := hden
  least := hleast
  lt := by
    rw [div_lt_iff₀ (by exact_mod_cast hden)] at hlt
    exact_mod_cast hlt
  normal := by
    refine hnormal.imp_right fun hle => ?_
    rw [le_div_iff₀ (by exact_mod_cast hden)] at hle
    exact_mod_cast hle

/-- The lengths of both numbers tell their quotient up to a factor of four. -/
private theorem quotient_bounds {num den : Nat} (hnum : num ≠ 0) (hden : den ≠ 0) :
    (2 : ℚ) ^ ((num.log2 : Int) - den.log2 - 1) < num / den ∧
      (num / den : ℚ) < 2 ^ ((num.log2 : Int) - den.log2 + 1) := by
  have hpos : (0 : ℚ) < den := by positivity
  have hnumLow : (2 : ℚ) ^ (num.log2 : Int) ≤ num := by
    exact_mod_cast Nat.log2_self_le hnum
  have hnumHigh : (num : ℚ) < 2 ^ ((num.log2 : Int) + 1) := by
    exact_mod_cast Nat.lt_log2_self
  have hdenLow : (2 : ℚ) ^ (den.log2 : Int) ≤ den := by
    exact_mod_cast Nat.log2_self_le hden
  have hdenHigh : (den : ℚ) < 2 ^ ((den.log2 : Int) + 1) := by
    exact_mod_cast Nat.lt_log2_self
  constructor
  · rw [lt_div_iff₀ hpos]
    calc (2 : ℚ) ^ ((num.log2 : Int) - den.log2 - 1) * den
        < 2 ^ ((num.log2 : Int) - den.log2 - 1) * 2 ^ ((den.log2 : Int) + 1) := by gcongr
      _ = 2 ^ (num.log2 : Int) := by
          rw [← zpow_add₀ (by norm_num)]
          congr 1
          ring
      _ ≤ num := hnumLow
  · rw [div_lt_iff₀ hpos]
    calc (num : ℚ) < 2 ^ ((num.log2 : Int) + 1) := hnumHigh
      _ = 2 ^ ((num.log2 : Int) - den.log2 + 1) * 2 ^ (den.log2 : Int) := by
          rw [← zpow_add₀ (by norm_num)]
          congr 1
          ring
      _ ≤ 2 ^ ((num.log2 : Int) - den.log2 + 1) * den := by gcongr

private theorem scaleDown_bounds {num den : Nat} (hnum : num ≠ 0) (hden : den ≠ 0)
    (exponent : Int) :
    (2 : ℚ) ^ ((num.log2 : Int) - den.log2 - 1 - exponent) <
        (scaleDown num den exponent).1 / (scaleDown num den exponent).2 ∧
      ((scaleDown num den exponent).1 / (scaleDown num den exponent).2 : ℚ) <
        2 ^ ((num.log2 : Int) - den.log2 + 1 - exponent) := by
  obtain ⟨hlow, hhigh⟩ := quotient_bounds hnum hden
  have hscale (length : Int) : (2 : ℚ) ^ (length - exponent) = 2 ^ length * 2 ^ (-exponent) := by
    rw [sub_eq_add_neg, zpow_add₀ two_ne_zero]
  rw [scaleDown_ratio, hscale, hscale]
  exact ⟨by gcongr, by gcongr⟩

private theorem scaleDown_succ_ratio (num den : Nat) (exponent : Int) :
    ((scaleDown num den exponent).1 / (scaleDown num den exponent).2 : ℚ) =
      2 * ((scaleDown num den (exponent + 1)).1 / (scaleDown num den (exponent + 1)).2) := by
  rw [scaleDown_ratio, scaleDown_ratio, neg_add', zpow_sub_one₀ two_ne_zero]
  ring

/-- The last place is chosen so that the integral part of the quotient is a significand. -/
private theorem scaled_lastPlace {num den : Nat} (hnum : num ≠ 0) (hden : 0 < den) :
    Scaled (scaleDown num den (lastPlace num den)).1 (scaleDown num den (lastPlace num den)).2
      (lastPlace num den) := by
  unfold lastPlace
  generalize hplace : max ((num.log2 : Int) - den.log2 - 53) (-1074) = low
  obtain ⟨hlow, hhigh⟩ := scaleDown_bounds hnum hden.ne' low
  have hpos := scaleDown_pos num hden low
  have hposCast : (0 : ℚ) < (scaleDown num den low).2 := by exact_mod_cast hpos
  dsimp only
  split
  · rename_i hfits
    rw [Nat.div_lt_iff_lt_mul hpos] at hfits
    have hlt : ((scaleDown num den low).1 / (scaleDown num den low).2 : ℚ) < 2 * leadingBit := by
      rw [div_lt_iff₀ hposCast]
      exact_mod_cast hfits
    refine scaled_of_ratio hpos (by omega) hlt ?_
    by_cases hleast : low = -1074
    · exact .inl hleast
    · rw [show (num.log2 : Int) - den.log2 - 1 - low = 52 by omega] at hlow
      norm_num [leadingBit] at hlow ⊢
      exact .inr hlow.le
  · rename_i hlarge
    rw [not_lt, Nat.le_div_iff_mul_le hpos] at hlarge
    have hleast : (2 * leadingBit : ℚ) ≤
        (scaleDown num den low).1 / (scaleDown num den low).2 := by
      rw [le_div_iff₀ hposCast]
      exact_mod_cast hlarge
    have hmost : ((scaleDown num den low).1 / (scaleDown num den low).2 : ℚ) < 4 * leadingBit :=
      calc ((scaleDown num den low).1 / (scaleDown num den low).2 : ℚ)
          < 2 ^ ((num.log2 : Int) - den.log2 + 1 - low) := hhigh
        _ ≤ 2 ^ (54 : Int) := zpow_le_zpow_right₀ (by norm_num) (by omega)
        _ = 4 * leadingBit := by norm_num [leadingBit]
    rw [scaleDown_succ_ratio] at hleast hmost
    exact scaled_of_ratio (scaleDown_pos num hden _) (by omega) (by linarith)
      (.inr (by linarith))

/-- The magnitude of the double nearest to a quotient is one that the quotient rounds to. -/
theorem roundsTo_magnitudeOfQuotient (num : Nat) {den : Nat} (hden : 0 < den) :
    RoundsTo (magnitudeOfQuotient num den) (num / den) := by
  unfold magnitudeOfQuotient
  split
  · rename_i hzero
    have hparts : partsAt 0 = (0, -1074) := by decide
    have hrounds : RoundsTo 0 (0 * 2 ^ ((-1074 : Int) - 2)) := by
      refine roundsTo_of_partsAt hparts le_rfl ?_ ?_ ?_ ?_ <;> norm_num [leadingBit]
    rw [hzero, Nat.cast_zero, zero_div]
    rwa [zero_mul] at hrounds
  · rename_i hnum
    have hscaled := scaled_lastPlace hnum hden
    have hrounds := hscaled.roundsTo
    rw [scaleDown_ratio, mul_assoc, ← zpow_add₀ (by norm_num), neg_add_cancel, zpow_zero,
      mul_one] at hrounds
    exact hrounds

private theorem RoundsTo.mono {m n : Nat} {p q : ℚ} (hm : RoundsTo m p) (hn : RoundsTo n q)
    (h : p ≤ q) :
    m ≤ n := by
  by_contra hlt
  have hends := upper_le_lower (Nat.lt_of_not_le hlt)
  have hpq : p = q := le_antisymm h (hn.le.2.trans (hends.trans hm.le.1))
  exact hlt (hm.unique (hpq ▸ hn)).le

private theorem RoundsTo.quarters {magnitude : Nat} {q : ℚ} (h : RoundsTo magnitude q) :
    (4 * (partsAt magnitude).1 - 2 : ℚ) * quarterAt magnitude ≤ q ∧
      q ≤ (4 * (partsAt magnitude).1 + 2) * quarterAt magnitude := by
  have hquarter : 0 < quarterAt magnitude := zpow_pos (by norm_num) _
  have hlow : 4 * (partsAt magnitude).1 ≤ (intervalAt magnitude).low + 2 := by
    unfold intervalAt interval
    dsimp only
    split <;> omega
  have hhigh : (intervalAt magnitude).high = 4 * (partsAt magnitude).1 + 2 := rfl
  obtain ⟨hlower, hupper⟩ := h.le
  unfold lower at hlower
  unfold upper at hupper
  rw [hhigh] at hupper
  push_cast at hupper
  have hlow' : (4 * (partsAt magnitude).1 : ℚ) ≤ (intervalAt magnitude).low + 2 := by
    exact_mod_cast hlow
  exact ⟨(mul_le_mul_of_nonneg_right (by linarith) hquarter.le).trans hlower, hupper⟩

private theorem RoundsTo.exponent_le {magnitude n : Nat} (h : RoundsTo magnitude n)
    (hlt : n < 2 * leadingBit) : (partsAt magnitude).2 ≤ 0 := by
  by_contra hwide
  obtain ⟨_, hleast, hsub⟩ := partsAt_bounds magnitude
  have hlow : 4 * leadingBit - 1 ≤ (intervalAt magnitude).low := by
    unfold intervalAt interval
    simp only [Bool.and_eq_true, decide_eq_true_eq]
    split <;> omega
  have hquarter : (2 : ℚ) ^ (-1 : Int) ≤ quarterAt magnitude :=
    zpow_le_zpow_right₀ (by norm_num) (by omega)
  have hlower : (4 * leadingBit - 1 : ℚ) * 2 ^ (-1 : Int) ≤ n := by
    have hlow' : (4 * leadingBit - 1 : ℚ) ≤ (intervalAt magnitude).low := by
      rw [sub_le_iff_le_add]
      exact_mod_cast (by omega : 4 * leadingBit ≤ (intervalAt magnitude).low + 1)
    have hfirst := h.le.1
    unfold lower at hfirst
    calc (4 * leadingBit - 1 : ℚ) * 2 ^ (-1 : Int)
        ≤ (intervalAt magnitude).low * quarterAt magnitude := by gcongr
      _ ≤ n := hfirst
  have hmost : (n : ℚ) + 1 ≤ 2 * leadingBit := by exact_mod_cast hlt
  norm_num at hlower
  linarith

private theorem RoundsTo.eq_of_lt {magnitude m n : Nat} (hm : RoundsTo magnitude m)
    (hn : RoundsTo magnitude n) (hlt : m < 2 * leadingBit) : m = n := by
  have hexponent := hm.exponent_le hlt
  rcases lt_or_eq_of_le hexponent with hneg | hzero
  · obtain ⟨hmLow, hmHigh⟩ := hm.quarters
    obtain ⟨hnLow, hnHigh⟩ := hn.quarters
    have hquarter : quarterAt magnitude ≤ 2 ^ (-3 : Int) :=
      zpow_le_zpow_right₀ (by norm_num) (by omega)
    norm_num at hquarter
    have hle : (m : ℚ) < n + 1 := by linarith
    have hge : (n : ℚ) < m + 1 := by linarith
    norm_cast at hle hge
    omega
  · -- The last place is a unit, and one integer at most is less than half a unit away.
    have hquarter : quarterAt magnitude = 1 / 4 := by
      unfold quarterAt
      rw [hzero]
      norm_num
    have hself {k : Nat} (h : RoundsTo magnitude k) : k = (partsAt magnitude).1 := by
      obtain ⟨hlow, hhigh⟩ := h.quarters
      rw [hquarter] at hlow hhigh
      have hle : 2 * (k : ℚ) ≤ 2 * (partsAt magnitude).1 + 1 := by linarith
      have hge : 2 * ((partsAt magnitude).1 : ℚ) ≤ 2 * k + 1 := by linarith
      norm_cast at hle hge
      omega
    exact (hself hm).trans (hself hn).symm

/-- The magnitude of the double nearest to an integer, none being past the largest finite one. -/
def integerMagnitude (n : Nat) : Nat := min (magnitudeOfQuotient n 1) (infinityMagnitude - 1)

private theorem key_of_bits (negative : Bool) {magnitude : Nat} (h : magnitude < signBit) :
    key ⟨UInt64.ofNat (if negative then signBit + magnitude else magnitude)⟩ =
      if negative then -(magnitude : Int) else magnitude := by
  have hsmall : (if negative then signBit + magnitude else magnitude) < 2 ^ 64 := by
    unfold signBit at *
    split <;> omega
  unfold key isNegative Binary64.magnitude
  rw [UInt64.toNat_ofNat_of_lt' hsmall]
  cases negative with
  | false =>
    simp only [Bool.false_eq_true, if_false, decide_eq_true_eq]
    rw [if_neg (by omega), Nat.mod_eq_of_lt h]
  | true =>
    simp only [if_true, decide_eq_true_eq]
    rw [if_pos (by omega), Nat.add_mod_left, Nat.mod_eq_of_lt h]

private theorem key_ofInt (i : Int) : (ofInt i).key =
    if i < 0 then -(integerMagnitude i.natAbs : Int) else integerMagnitude i.natAbs := by
  have hlimit : infinityMagnitude < signBit := by decide
  have hkey (magnitude : Nat) (h : magnitude < signBit) :
      key ⟨UInt64.ofNat (if i < 0 then signBit + magnitude else magnitude)⟩ =
        if i < 0 then -(magnitude : Int) else magnitude := by
    simpa using key_of_bits (decide (i < 0)) h
  unfold ofInt ofQuotient? integerMagnitude
  generalize magnitudeOfQuotient i.natAbs 1 = magnitude
  simp only [decide_eq_true_eq]
  split
  · rename_i hfinite
    rw [Option.getD_some, hkey _ (hfinite.trans hlimit), Nat.min_eq_left (by omega)]
  · rename_i hlarge
    have hclamped : (if i < 0 then signBit else 0) + (infinityMagnitude - 1) =
        if i < 0 then signBit + (infinityMagnitude - 1) else infinityMagnitude - 1 := by
      split
      · rfl
      · exact Nat.zero_add _
    rw [Option.getD_none, hclamped, hkey _ (by omega), Nat.min_eq_right (by omega)]

private theorem integerMagnitude_mono {m n : Nat} (h : m ≤ n) :
    integerMagnitude m ≤ integerMagnitude n := by
  have hmono : magnitudeOfQuotient m 1 ≤ magnitudeOfQuotient n 1 :=
    (roundsTo_magnitudeOfQuotient m one_pos).mono (roundsTo_magnitudeOfQuotient n one_pos)
      (by gcongr)
  unfold integerMagnitude
  omega

private theorem integerMagnitude_inj {m n : Nat} (hlt : m < 2 * leadingBit)
    (h : integerMagnitude m = integerMagnitude n) : m = n := by
  have hm := roundsTo_magnitudeOfQuotient m one_pos
  have hn := roundsTo_magnitudeOfQuotient n one_pos
  rw [Nat.cast_one, div_one] at hm hn
  have hfirst : magnitudeOfQuotient m 1 ≤ magnitudeOfQuotient (2 * leadingBit) 1 := by
    have hlimit := roundsTo_magnitudeOfQuotient (2 * leadingBit) one_pos
    rw [Nat.cast_one, div_one] at hlimit
    exact hm.mono hlimit (by exact_mod_cast hlt.le)
  have hfinite : magnitudeOfQuotient (2 * leadingBit) 1 < infinityMagnitude - 1 := by
    decide +kernel
  have hsame : magnitudeOfQuotient m 1 = magnitudeOfQuotient n 1 := by
    unfold integerMagnitude at h
    omega
  rw [← hsame] at hn
  exact hm.eq_of_lt hn hlt

/-- Integers keep their order when they are rounded. -/
theorem key_ofInt_mono {a b : Int} (h : a ≤ b) : (ofInt a).key ≤ (ofInt b).key := by
  rw [key_ofInt, key_ofInt]
  split
  · split
    · have hmono := integerMagnitude_mono (show b.natAbs ≤ a.natAbs by omega)
      omega
    · omega
  · rw [if_neg (by omega)]
    have hmono := integerMagnitude_mono (show a.natAbs ≤ b.natAbs by omega)
    omega

private theorem key_ofInt_natAbs {a b : Int} (h : (ofInt a).key = (ofInt b).key) :
    integerMagnitude a.natAbs = integerMagnitude b.natAbs ∧
      (integerMagnitude a.natAbs = 0 ∨ (a < 0 ↔ b < 0)) := by
  rw [key_ofInt, key_ofInt] at h
  split at h <;> split at h <;> omega

/-- An integer below `2 ^ 53` in absolute value shares its double with no other integer. -/
theorem ofInt_inj {a b : Int} (hlt : a.natAbs < 2 ^ 53) (h : (ofInt a).key = (ofInt b).key) :
    a = b := by
  obtain ⟨hmagnitude, hsign⟩ := key_ofInt_natAbs h
  have habs : a.natAbs = b.natAbs := integerMagnitude_inj hlt hmagnitude
  rcases hsign with hzero | hsign
  · have hone : integerMagnitude 0 = 0 := by decide
    have ha : 0 = a.natAbs := integerMagnitude_inj (by decide) (hone.trans hzero.symm)
    omega
  · omega

end GraphRecords.Binary64
