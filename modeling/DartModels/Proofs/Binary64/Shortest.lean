import DartModels.Binary64.Shortest
import DartModels.Proofs.Binary64.Value

/-! # The shortest decimal reads back

The decimal that a positive number is written with lies in the interval of the number, so that it
rounds to the number again.
-/

namespace DartModels.Binary64

/-- The value of a decimal. -/
def Decimal.value (d : Decimal) : ℚ :=
  d.digits * 10 ^ d.exponent

section Comparison

variable {a b : Nat} {i j : Int}

/-- Both sides of a comparison as integers in the same unit. -/
theorem exists_common_unit (a b : Nat) (i j : Int) : ∃ unit : ℚ, 0 < unit ∧
    (a : ℚ) * 10 ^ i * unit = (a * tenPow i * twoPow (-j) : Nat) ∧
      (b : ℚ) * 2 ^ j * unit = (b * twoPow j * tenPow (-i) : Nat) := by
  have hten : (0 : ℚ) < tenPow (-i) := by exact_mod_cast tenPow_pos (-i)
  have htwo : (0 : ℚ) < twoPow (-j) := by exact_mod_cast twoPow_pos (-j)
  refine ⟨tenPow (-i) * twoPow (-j), mul_pos hten htwo, ?_, ?_⟩
  · push_cast
    rw [tenPow_eq i]
    ring
  · push_cast
    rw [twoPow_eq j]
    ring

theorem compareScaled_ne_gt : compareScaled a i b j ≠ .gt ↔ (a : ℚ) * 10 ^ i ≤ b * 2 ^ j := by
  obtain ⟨unit, hunit, ha, hb⟩ := exists_common_unit a b i j
  rw [← mul_le_mul_iff_of_pos_right hunit, ha, hb, Nat.cast_le]
  exact Nat.compare_ne_gt

theorem compareScaled_ne_lt : compareScaled a i b j ≠ .lt ↔ (b : ℚ) * 2 ^ j ≤ a * 10 ^ i := by
  obtain ⟨unit, hunit, ha, hb⟩ := exists_common_unit a b i j
  rw [← mul_le_mul_iff_of_pos_right hunit, ha, hb, Nat.cast_le]
  exact Nat.compare_ne_lt

theorem compareScaled_eq_lt : compareScaled a i b j = .lt ↔ (a : ℚ) * 10 ^ i < b * 2 ^ j := by
  rw [← not_le, ← compareScaled_ne_lt, not_not]

theorem compareScaled_eq_gt : compareScaled a i b j = .gt ↔ (b : ℚ) * 2 ^ j < a * 10 ^ i := by
  rw [← not_le, ← compareScaled_ne_gt, not_not]

end Comparison

section Interval

variable {mantissa : Nat} {exponent : Int}

/-- A number counted in quarters of a unit. -/
theorem eq_quarters (r : ℚ) (e : Int) : r = 4 * (r / 2 ^ e) * 2 ^ (e - 2) := by
  have hunit := (two_zpow_pos e).ne'
  rw [zpow_sub₀ (by norm_num)]
  field_simp
  norm_num

theorem quarters_le_iff (c r : ℚ) (e : Int) : c * 2 ^ (e - 2) ≤ r ↔ c ≤ 4 * (r / 2 ^ e) := by
  conv_lhs => rw [eq_quarters r e]
  exact mul_le_mul_iff_of_pos_right (two_zpow_pos _)

theorem le_quarters_iff (c r : ℚ) (e : Int) : r ≤ c * 2 ^ (e - 2) ↔ 4 * (r / 2 ^ e) ≤ c := by
  conv_lhs => rw [eq_quarters r e]
  exact mul_le_mul_iff_of_pos_right (two_zpow_pos _)

theorem readsBack_iff (hmantissa : 0 < mantissa) (d : Decimal) :
    readsBack mantissa exponent d = true ↔ RoundsTo mantissa exponent d.value := by
  have hbelow : ((4 * mantissa -
      (if (mantissa = twoPow 52 && minExponent < exponent) = true then 1 else 2) : Nat) : ℚ) =
        4 * mantissa - (if mantissa = 2 ^ 52 ∧ minExponent < exponent then 1 else 2) := by
    have hpower : twoPow 52 = 2 ^ 52 := rfl
    rw [hpower, Nat.cast_sub (by split <;> omega)]
    simp
  have habove : ((4 * mantissa + 2 : Nat) : ℚ) = 4 * mantissa + 2 := by
    push_cast
    rfl
  unfold readsBack
  dsimp only
  by_cases heven : mantissa % 2 = 0
  · rw [if_pos (by simpa using heven), Bool.and_eq_true, bne_iff_ne, bne_iff_ne,
      compareScaled_ne_lt, compareScaled_ne_gt, quarters_le_iff, le_quarters_iff, hbelow, habove]
    exact ⟨fun ⟨hlow, hhigh⟩ => ⟨hlow, hhigh, by omega⟩, fun h => ⟨h.low, h.high⟩⟩
  · have hpower : ¬ (mantissa = 2 ^ 52 ∧ minExponent < exponent) := by omega
    rw [if_neg (by simpa using heven), Bool.and_eq_true, beq_iff_eq, beq_iff_eq,
      compareScaled_eq_gt, compareScaled_eq_lt, lt_iff_lt_of_le_iff_le (le_quarters_iff _ _ _),
      lt_iff_lt_of_le_iff_le (quarters_le_iff _ _ _), hbelow, habove, if_neg hpower]
    constructor
    · rintro ⟨hlow, hhigh⟩
      exact ⟨(if_neg hpower).symm ▸ hlow.le, hhigh.le, fun _ => ⟨hlow, hhigh⟩⟩
    · exact fun h => h.odd (by omega)

theorem value_exactDecimal : (exactDecimal mantissa exponent).value = mantissa * 2 ^ exponent := by
  unfold exactDecimal
  split
  · next h =>
    obtain ⟨n, rfl⟩ : ∃ n : Nat, exponent = -n := ⟨(-exponent).toNat, by omega⟩
    have hten : (10 : ℚ) ^ n = 2 ^ n * 5 ^ n := by rw [← mul_pow]; norm_num
    simp only [Decimal.value, Int.neg_neg, Int.toNat_natCast, Nat.pow_eq, zpow_neg, zpow_natCast,
      hten]
    push_cast
    field_simp
  · next h =>
    obtain ⟨n, rfl⟩ : ∃ n : Nat, exponent = n := ⟨exponent.toNat, by omega⟩
    simp [Decimal.value, twoPow]

/-- A number rounds to itself. -/
theorem roundsTo_self : RoundsTo mantissa exponent (mantissa * 2 ^ exponent) := by
  have hscaled : (mantissa : ℚ) * 2 ^ exponent / 2 ^ exponent = mantissa :=
    mul_div_cancel_right₀ _ (two_zpow_pos exponent).ne'
  refine ⟨?_, ?_, fun _ => ⟨?_, ?_⟩⟩ <;> rw [hscaled]
  · split <;> linarith
  all_goals linarith

theorem readsBack_of_onGrid {grid : Int} {d : Decimal}
    (h : onGrid mantissa exponent grid = some d) : readsBack mantissa exponent d = true := by
  unfold onGrid at h
  dsimp only at h
  generalize mantissa * twoPow exponent * tenPow (-grid) = num at h
  generalize twoPow (-exponent) * tenPow grid = den at h
  split at h
  · next hfloor hceiling =>
    cases h
    unfold roundDiv
    dsimp only
    split
    · exact hfloor
    · exact hceiling
  · next hfloor _ =>
    cases h
    exact hfloor
  · next _ hceiling =>
    cases h
    exact hceiling
  · cases h

theorem roundsTo_shortest (hmantissa : 0 < mantissa) :
    RoundsTo mantissa exponent (shortest mantissa exponent).value := by
  rw [← readsBack_iff hmantissa]
  unfold shortest
  dsimp only
  split
  · next h =>
    obtain ⟨n, -, hgrid⟩ := List.exists_of_findSome?_eq_some h
    exact readsBack_of_onGrid hgrid
  · rw [readsBack_iff hmantissa, value_exactDecimal]
    exact roundsTo_self

end Interval

end DartModels.Binary64
