import Mathlib.Algebra.Order.Field.Power
import Mathlib.Data.Rat.Cast.Order
import Mathlib.Tactic.FieldSimp
import Mathlib.Tactic.Linarith
import Mathlib.Tactic.NormNum
import Mathlib.Tactic.Positivity
import Mathlib.Tactic.Ring
import DartModels.Binary64.Basic

/-! # The value of a number

A finite number is a rational. A positive quotient rounds to a number whenever it lies in the
interval of the number, which ends halfway to its neighbours; the ends belong to the number with the
even mantissa.
-/

namespace DartModels.Binary64

/-- The value of a finite number; both zeros have the same. -/
def value? : Binary64 → Option ℚ
  | .finite negative mantissa exponent =>
    some ((if negative then -1 else 1) * mantissa * 2 ^ exponent)
  | _ => none

section Powers

variable {e i : Int}

theorem twoPow_eq (e : Int) : (twoPow e : ℚ) = 2 ^ e * twoPow (-e) := by
  rcases Int.le_total 0 e with h | h
  · obtain ⟨n, rfl⟩ := Int.eq_ofNat_of_zero_le h
    simp [twoPow]
  · obtain ⟨n, hn⟩ := Int.eq_ofNat_of_zero_le (Int.neg_nonneg.2 h)
    obtain rfl : e = -n := by omega
    simp [twoPow]

theorem tenPow_eq (i : Int) : (tenPow i : ℚ) = 10 ^ i * tenPow (-i) := by
  rcases Int.le_total 0 i with h | h
  · obtain ⟨n, rfl⟩ := Int.eq_ofNat_of_zero_le h
    simp [tenPow]
  · obtain ⟨n, hn⟩ := Int.eq_ofNat_of_zero_le (Int.neg_nonneg.2 h)
    obtain rfl : i = -n := by omega
    simp [tenPow]

theorem twoPow_pos (e : Int) : 0 < twoPow e :=
  Nat.pow_pos (by decide)

theorem tenPow_pos (i : Int) : 0 < tenPow i :=
  Nat.pow_pos (by decide)

theorem two_zpow_pos (e : Int) : (0 : ℚ) < 2 ^ e :=
  zpow_pos (by norm_num) e

theorem two_zpow_le (h : e ≤ i) : (2 : ℚ) ^ e ≤ 2 ^ i :=
  zpow_le_zpow_right₀ (by norm_num) h

theorem lt_of_two_zpow_lt (h : (2 : ℚ) ^ e < 2 ^ i) : e < i :=
  (zpow_lt_zpow_iff_right₀ (by norm_num)).1 h

theorem two_zpow_natCast_add (n : Nat) (e : Int) : (2 : ℚ) ^ (n + e) = 2 ^ n * 2 ^ e := by
  rw [zpow_add₀ (by norm_num), zpow_natCast]

end Powers

section Quotients

variable {num den : Nat}

theorem div_lt_zpow_iff (hden : 0 < den) (e : Int) :
    (num : ℚ) / den < 2 ^ e ↔ num * twoPow (-e) < den * twoPow e := by
  have hden' : (0 : ℚ) < den := by exact_mod_cast hden
  have hpow : (0 : ℚ) < twoPow (-e) := by exact_mod_cast twoPow_pos (-e)
  rw [div_lt_iff₀ hden', ← mul_lt_mul_iff_of_pos_right hpow, mul_right_comm, ← twoPow_eq,
    mul_comm (twoPow e : ℚ)]
  exact_mod_cast Iff.rfl

/-- The leading binary digit of a positive quotient. -/
theorem leadExponent_spec (hnum : 0 < num) (hden : 0 < den) :
    (2 : ℚ) ^ leadExponent num den ≤ num / den ∧
      (num : ℚ) / den < 2 ^ (leadExponent num den + 1) := by
  have hden' : (0 : ℚ) < den := by exact_mod_cast hden
  have hnum_le : (2 : ℚ) ^ num.log2 ≤ num := by exact_mod_cast Nat.log2_self_le hnum.ne'
  have hnum_lt : (num : ℚ) < 2 ^ (num.log2 + 1) := by exact_mod_cast Nat.lt_log2_self
  have hden_le : (2 : ℚ) ^ den.log2 ≤ den := by exact_mod_cast Nat.log2_self_le hden.ne'
  have hden_lt : (den : ℚ) < 2 ^ (den.log2 + 1) := by exact_mod_cast Nat.lt_log2_self
  have hlow : (2 : ℚ) ^ ((num.log2 : Int) - den.log2 - 1) < num / den := by
    have hsplit := two_zpow_natCast_add (den.log2 + 1) ((num.log2 : Int) - den.log2 - 1)
    rw [show ((den.log2 + 1 : Nat) : Int) + (num.log2 - den.log2 - 1) = num.log2 by omega,
      zpow_natCast] at hsplit
    rw [lt_div_iff₀ hden']
    refine lt_of_lt_of_le ?_ (hsplit.symm.le.trans hnum_le)
    rw [mul_comm]
    exact mul_lt_mul_of_pos_right hden_lt (two_zpow_pos _)
  have hhigh : (num : ℚ) / den < 2 ^ ((num.log2 : Int) - den.log2 + 1) := by
    have hsplit := two_zpow_natCast_add den.log2 ((num.log2 : Int) - den.log2 + 1)
    rw [show (den.log2 : Int) + (num.log2 - den.log2 + 1) = (num.log2 + 1 : Nat) by omega,
      zpow_natCast] at hsplit
    rw [div_lt_iff₀ hden']
    refine lt_of_lt_of_le (hnum_lt.trans_eq hsplit) ?_
    rw [mul_comm]
    exact mul_le_mul_of_nonneg_left hden_le (two_zpow_pos _).le
  unfold leadExponent
  dsimp only
  generalize (num.log2 : Int) - den.log2 = lead at *
  split
  · next h =>
    rw [sub_add_cancel]
    exact ⟨hlow.le, (div_lt_zpow_iff hden lead).2 h⟩
  · next h => exact ⟨not_lt.1 (mt (div_lt_zpow_iff hden lead).1 h), hhigh⟩

/-- A quotient within half a unit of a number rounds to it, unless it lies in the middle and the
number is odd. -/
theorem roundDiv_eq {m : Nat} (hden : 0 < den) (hlow : 2 * (m * den) ≤ 2 * num + den)
    (hhigh : 2 * num ≤ 2 * (m * den) + den)
    (hodd : m % 2 = 1 → 2 * (m * den) < 2 * num + den ∧ 2 * num < 2 * (m * den) + den) :
    roundDiv num den = m := by
  have hdiv : den * (num / den) + num % den = num := Nat.div_add_mod num den
  have hrest : num % den < den := Nat.mod_lt _ hden
  unfold roundDiv
  dsimp only
  generalize num / den = q at *
  generalize num % den = r at *
  subst hdiv
  -- the floor of the quotient is the number or the one below it
  have hfloor : q = m ∨ q + 1 = m := by
    have hle : q ≤ m := by
      by_contra h
      have := Nat.mul_le_mul_right den (not_le.1 h : m + 1 ≤ q)
      linarith
    have hge : m ≤ q + 1 := by
      by_contra h
      have := Nat.mul_le_mul_right den (not_le.1 h : q + 1 + 1 ≤ m)
      linarith
    omega
  rcases hfloor with rfl | rfl
  · rw [if_pos]
    rw [mul_comm q den] at hhigh hodd
    simp only [Bool.or_eq_true, Bool.and_eq_true, decide_eq_true_eq]
    omega
  · rw [if_neg]
    have hsucc : (q + 1) * den = den * q + den := by ring
    rw [hsucc] at hlow hodd
    simp only [Bool.or_eq_true, Bool.and_eq_true, decide_eq_true_eq]
    omega

theorem leadExponent_lt (hnum : 0 < num) (hden : 0 < den) {n : Nat} {e : Int}
    (h : (num : ℚ) / den / 2 ^ e < 2 ^ n) : leadExponent num den < n + e := by
  rw [div_lt_iff₀ (two_zpow_pos e), ← two_zpow_natCast_add] at h
  exact lt_of_two_zpow_lt ((leadExponent_spec hnum hden).1.trans_lt h)

theorem le_leadExponent (hnum : 0 < num) (hden : 0 < den) {n : Nat} {e : Int}
    (h : (2 : ℚ) ^ n ≤ num / den / 2 ^ e) : n + e ≤ leadExponent num den := by
  rw [le_div_iff₀ (two_zpow_pos e), ← two_zpow_natCast_add] at h
  exact Int.lt_add_one_iff.1 (lt_of_two_zpow_lt (h.trans_lt (leadExponent_spec hnum hden).2))

/-- Scaling a quotient by a power of two. -/
theorem scaled_div (hden : 0 < den) (e : Int) :
    ((num * twoPow (-e) : Nat) : ℚ) / (den * twoPow e : Nat) = num / den / 2 ^ e := by
  have hden' : (den : ℚ) ≠ 0 := by exact_mod_cast hden.ne'
  have hpow : (twoPow (-e) : ℚ) ≠ 0 := by exact_mod_cast (twoPow_pos (-e)).ne'
  have htwo := (two_zpow_pos e).ne'
  push_cast
  rw [twoPow_eq e]
  field_simp

end Quotients

/-- The mantissa and the exponent of a finite number. -/
structure IsCanonical (mantissa : Nat) (exponent : Int) : Prop where
  bound : mantissa < 2 ^ 53
  least : minExponent ≤ exponent
  greatest : exponent ≤ maxExponent
  leading : 2 ^ 52 ≤ mantissa ∨ exponent = minExponent

/-- The numbers that round to `mantissa * 2 ^ exponent`, which lie less than half a unit away. Below
a power of two the next number is only half a unit away itself. -/
structure RoundsTo (mantissa : Nat) (exponent : Int) (r : ℚ) : Prop where
  low : 4 * mantissa - (if mantissa = 2 ^ 52 ∧ minExponent < exponent then 1 else 2) ≤
    4 * (r / 2 ^ exponent)
  high : 4 * (r / 2 ^ exponent) ≤ 4 * mantissa + 2
  odd : mantissa % 2 = 1 →
    4 * mantissa - 2 < 4 * (r / 2 ^ exponent) ∧ 4 * (r / 2 ^ exponent) < 4 * mantissa + 2

section Rounding

variable {mantissa : Nat} {exponent : Int} {r : ℚ} {num den : Nat}

theorem RoundsTo.half_le (h : RoundsTo mantissa exponent r) :
    4 * mantissa - 2 ≤ 4 * (r / 2 ^ exponent) := by
  have hlow := h.low
  split at hlow <;> linarith

/-- The mantissa of a quotient in the unit of the number that it rounds to. -/
theorem roundDiv_of_roundsTo (hden : 0 < den)
    (h : RoundsTo mantissa exponent ((num : ℚ) / den)) :
    roundDiv (num * twoPow (-exponent)) (den * twoPow exponent) = mantissa := by
  have hhalf := h.half_le
  obtain ⟨-, hhigh, hodd⟩ := h
  have hpos : 0 < den * twoPow exponent := Nat.mul_pos hden (twoPow_pos exponent)
  rw [← scaled_div hden] at hhalf hhigh hodd
  generalize num * twoPow (-exponent) = n at *
  generalize den * twoPow exponent = d at *
  have hd : (0 : ℚ) < d := by exact_mod_cast hpos
  rw [← mul_div_assoc, le_div_iff₀ hd] at hhalf
  rw [← mul_div_assoc, div_le_iff₀ hd] at hhigh
  rw [← mul_div_assoc, lt_div_iff₀ hd, div_lt_iff₀ hd] at hodd
  refine roundDiv_eq hpos ?_ ?_ fun hmantissa => ⟨?_, ?_⟩
  · have : (2 * (mantissa * d) : ℚ) ≤ 2 * n + d := by linarith
    exact_mod_cast this
  · have : (2 * n : ℚ) ≤ 2 * (mantissa * d) + d := by linarith
    exact_mod_cast this
  · have : (2 * (mantissa * d) : ℚ) < 2 * n + d := by linarith [(hodd hmantissa).1]
    exact_mod_cast this
  · have : (2 * n : ℚ) < 2 * (mantissa * d) + d := by linarith [(hodd hmantissa).2]
    exact_mod_cast this

/-- A quotient that rounds to a number has its leading digit where the number has it, or one place
lower. -/
theorem unit_of_roundsTo (hc : IsCanonical mantissa exponent) (hnum : 0 < num) (hden : 0 < den)
    (h : RoundsTo mantissa exponent ((num : ℚ) / den)) :
    max (leadExponent num den - 52) minExponent = exponent ∨
      mantissa = 2 ^ 52 ∧ minExponent < exponent ∧
        leadExponent num den - 52 = exponent - 1 := by
  have hhalf := h.half_le
  have hleast := hc.least
  have hupper : leadExponent num den < (53 : Nat) + exponent := by
    refine leadExponent_lt hnum hden ?_
    have hbound : (mantissa : ℚ) + 1 ≤ 2 ^ 53 := by exact_mod_cast hc.bound
    linarith [h.high]
  by_cases hsmall : exponent = minExponent
  · exact .inl (by omega)
  · have hleading := hc.leading.resolve_right hsmall
    have hlower : (51 : Nat) + exponent ≤ leadExponent num den := by
      refine le_leadExponent hnum hden ?_
      have hbound : (2 : ℚ) ^ 52 ≤ mantissa := by exact_mod_cast hleading
      linarith
    by_cases hpower : mantissa = 2 ^ 52
    · omega
    · have hlower : (52 : Nat) + exponent ≤ leadExponent num den := by
        refine le_leadExponent hnum hden ?_
        have hbound : (2 : ℚ) ^ 52 + 1 ≤ mantissa := by
          exact_mod_cast lt_of_le_of_ne hleading (Ne.symm hpower)
        linarith
      omega

theorem ofRatio_of_roundsTo (negative : Bool) (hc : IsCanonical mantissa exponent) (hnum : 0 < num)
    (hden : 0 < den) (h : RoundsTo mantissa exponent ((num : ℚ) / den)) :
    ofRatio negative num den = .finite negative mantissa exponent := by
  have hgreatest := hc.greatest
  unfold ofRatio
  dsimp only
  rcases unit_of_roundsTo hc hnum hden h with hunit | ⟨rfl, hleast, hunit⟩
  · have hbound : mantissa ≠ twoPow 53 := hc.bound.ne
    rw [hunit, roundDiv_of_roundsTo hden h, if_neg hbound]
    dsimp only
    rw [if_neg (not_lt.2 hgreatest)]
  · -- the next lower unit, in which the number is twice as large
    have hlow := h.low
    rw [if_pos ⟨rfl, hleast⟩] at hlow
    have hhigh : (num : ℚ) / den / 2 ^ (exponent - 1) < 2 ^ 53 := by
      rw [div_lt_iff₀ (two_zpow_pos _), ← two_zpow_natCast_add]
      exact (leadExponent_spec hnum hden).2.trans_le (two_zpow_le (by omega))
    have hscale : (num : ℚ) / den / 2 ^ (exponent - 1) = 2 * (num / den / 2 ^ exponent) := by
      rw [zpow_sub_one₀ (by norm_num)]
      field_simp
    have hdouble : RoundsTo (2 ^ 53) (exponent - 1) ((num : ℚ) / den) := by
      refine ⟨?_, ?_, fun hodd => absurd hodd (by decide)⟩
      · rw [if_neg (fun h => absurd h.1 (by decide)), hscale]
        push_cast at hlow ⊢
        linarith
      · push_cast
        linarith
    have htop : 2 ^ 53 = twoPow 53 := rfl
    rw [hunit, max_eq_left (by omega), roundDiv_of_roundsTo hden hdouble, if_pos htop]
    dsimp only
    rw [sub_add_cancel, if_neg (not_lt.2 hgreatest)]
    rfl

theorem RoundsTo.lt_overflow (h : RoundsTo mantissa exponent r)
    (hc : IsCanonical mantissa exponent) : r < 2 ^ (1024 : Int) := by
  have hbound : (mantissa : ℚ) + 1 ≤ 2 ^ 53 := by exact_mod_cast hc.bound
  have hscaled : r / 2 ^ exponent < 2 ^ 53 := by linarith [h.high]
  rw [div_lt_iff₀ (two_zpow_pos exponent), ← two_zpow_natCast_add] at hscaled
  have hgreatest : exponent ≤ 971 := hc.greatest
  exact hscaled.trans_le (two_zpow_le (by omega))

theorem RoundsTo.underflow_le (h : RoundsTo mantissa exponent r) (hmantissa : 0 < mantissa)
    (hc : IsCanonical mantissa exponent) : (2 : ℚ) ^ (-1080 : Int) ≤ r := by
  have hpos : (1 : ℚ) ≤ mantissa := by exact_mod_cast hmantissa
  have hscaled : 1 / 2 ≤ r / 2 ^ exponent := by linarith [h.half_le]
  rw [le_div_iff₀ (two_zpow_pos exponent)] at hscaled
  have hleast : -1074 ≤ exponent := hc.least
  have hunit : (2 : ℚ) ^ (exponent - 1) = 1 / 2 * 2 ^ exponent := by
    rw [zpow_sub_one₀ (by norm_num)]
    ring
  exact (two_zpow_le (by omega)).trans (hunit.trans_le hscaled)

/-- A decimal with an exponent beyond all numbers. -/
theorem overflow_le {digits : Nat} {power : Int} (hdigits : 0 < digits) (h : 400 < power) :
    (2 : ℚ) ^ (1024 : Int) ≤ digits * 10 ^ power := by
  obtain ⟨n, rfl⟩ : ∃ n : Nat, power = n := ⟨power.toNat, by omega⟩
  have hpos : (1 : ℚ) ≤ digits := by exact_mod_cast hdigits
  have hpower : (2 : ℚ) ^ (3 * n : Int) ≤ 10 ^ n := by
    rw [zpow_mul, zpow_natCast]
    exact pow_le_pow_left₀ (by norm_num) (by norm_num) n
  calc (2 : ℚ) ^ (1024 : Int) ≤ 2 ^ (3 * n : Int) := two_zpow_le (by omega)
    _ ≤ 1 * 10 ^ (n : Int) := by rwa [one_mul, zpow_natCast]
    _ ≤ digits * 10 ^ (n : Int) := mul_le_mul_of_nonneg_right hpos (by positivity)

/-- A decimal with so few digits before its exponent that no number is as small. -/
theorem lt_underflow {digits : Nat} {power : Int}
    (h : (digits.log2 : Int) + 1 + 3 * power < -1080) :
    (digits : ℚ) * 10 ^ power < 2 ^ (-1080 : Int) := by
  obtain ⟨n, rfl⟩ : ∃ n : Nat, power = -n := ⟨(-power).toNat, by omega⟩
  have hdigits : (digits : ℚ) < 2 ^ (digits.log2 + 1) := by exact_mod_cast Nat.lt_log2_self
  have hpower : (10 : ℚ) ^ (-n : Int) ≤ 2 ^ (3 * -n : Int) := by
    rw [zpow_mul, zpow_neg, zpow_neg, zpow_natCast, zpow_natCast]
    exact inv_anti₀ (by positivity) (pow_le_pow_left₀ (by norm_num) (by norm_num) n)
  calc (digits : ℚ) * 10 ^ (-n : Int) < 2 ^ (digits.log2 + 1) * 10 ^ (-n : Int) :=
        mul_lt_mul_of_pos_right hdigits (zpow_pos (by norm_num) _)
    _ ≤ 2 ^ (digits.log2 + 1) * 2 ^ (3 * -n : Int) :=
        mul_le_mul_of_nonneg_left hpower (by positivity)
    _ = 2 ^ ((digits.log2 + 1 : Nat) + 3 * -n : Int) := (two_zpow_natCast_add _ _).symm
    _ ≤ 2 ^ (-1080 : Int) := two_zpow_le (by omega)

/-- Every decimal that rounds to a positive number is read as that number. -/
theorem ofDecimal_of_roundsTo (negative : Bool) (hc : IsCanonical mantissa exponent)
    (hmantissa : 0 < mantissa) {digits : Nat} {power : Int}
    (h : RoundsTo mantissa exponent (digits * 10 ^ power)) :
    ofDecimal negative digits power = .finite negative mantissa exponent := by
  have hlow := h.underflow_le hmantissa hc
  have hdigits : digits ≠ 0 := by
    rintro rfl
    rw [Nat.cast_zero, zero_mul] at hlow
    exact absurd (two_zpow_pos (-1080)) (not_lt.2 hlow)
  have hpos := Nat.pos_of_ne_zero hdigits
  have hlarge : ¬ 400 < power := fun hpower =>
    absurd (h.lt_overflow hc) (not_lt.2 (overflow_le hpos hpower))
  have hsmall : ¬ (digits.log2 : Int) + 1 + 3 * power < -1080 := fun hpower =>
    absurd (lt_underflow hpower) (not_lt.2 hlow)
  have hquotient : ((digits * tenPow power : Nat) : ℚ) / tenPow (-power) = digits * 10 ^ power := by
    have hpow : (tenPow (-power) : ℚ) ≠ 0 := by exact_mod_cast (tenPow_pos (-power)).ne'
    push_cast
    rw [tenPow_eq power]
    field_simp
  rw [ofDecimal, if_neg hdigits, if_neg hlarge, if_neg hsmall]
  exact ofRatio_of_roundsTo negative hc (Nat.mul_pos hpos (tenPow_pos _)) (tenPow_pos _)
    (hquotient ▸ h)

/-- The mantissa found for a quotient in the unit of its leading digit. -/
theorem roundDiv_scaled_bounds (hnum : 0 < num) (hden : 0 < den) {e : Int}
    (hunit : e = max (leadExponent num den - 52) minExponent) :
    roundDiv (num * twoPow (-e)) (den * twoPow e) ≤ 2 ^ 53 ∧
      (e = minExponent ∨ 2 ^ 52 ≤ roundDiv (num * twoPow (-e)) (den * twoPow e)) := by
  have hpos : 0 < den * twoPow e := Nat.mul_pos hden (twoPow_pos e)
  obtain ⟨hnear, hnear'⟩ := roundDiv_near (num * twoPow (-e)) (den * twoPow e) hpos
  obtain ⟨hlow, hhigh⟩ := leadExponent_spec hnum hden
  have hd : (0 : ℚ) < (den * twoPow e : Nat) := by exact_mod_cast hpos
  have hscaled : ((num * twoPow (-e) : Nat) : ℚ) / (den * twoPow e : Nat) = num / den / 2 ^ e :=
    scaled_div hden e
  generalize roundDiv (num * twoPow (-e)) (den * twoPow e) = m at *
  generalize num * twoPow (-e) = n at *
  generalize den * twoPow e = d at *
  constructor
  · have hlt : (n : ℚ) / d < 2 ^ 53 := by
      rw [hscaled, div_lt_iff₀ (two_zpow_pos e), ← two_zpow_natCast_add]
      exact hhigh.trans_le (two_zpow_le (by omega))
    rw [div_lt_iff₀ hd] at hlt
    have hnat : n < 2 ^ 53 * d := by exact_mod_cast hlt
    by_contra hm
    have := Nat.mul_le_mul_right d (not_le.1 hm : 2 ^ 53 + 1 ≤ m)
    omega
  · by_cases hleast : e = minExponent
    · exact .inl hleast
    · refine .inr ?_
      have hle : (2 : ℚ) ^ 52 ≤ n / d := by
        rw [hscaled, le_div_iff₀ (two_zpow_pos e), ← two_zpow_natCast_add]
        exact (two_zpow_le (by omega)).trans hlow
      rw [le_div_iff₀ hd] at hle
      have hnat : 2 ^ 52 * d ≤ n := by exact_mod_cast hle
      by_contra hm
      have := Nat.mul_le_mul_right d (not_le.1 hm : m + 1 ≤ 2 ^ 52)
      rw [Nat.succ_mul] at this
      omega

theorem isCanonical_of_ofRatio {negative sign : Bool} (hnum : 0 < num) (hden : 0 < den)
    (h : ofRatio negative num den = .finite sign mantissa exponent) :
    IsCanonical mantissa exponent := by
  unfold ofRatio at h
  dsimp only at h
  obtain ⟨hbound, hleading⟩ := roundDiv_scaled_bounds hnum hden rfl
  have hleast : minExponent ≤ max (leadExponent num den - 52) minExponent := le_max_right _ _
  generalize max (leadExponent num den - 52) minExponent = e at *
  generalize roundDiv (num * twoPow (-e)) (den * twoPow e) = m at *
  by_cases htop : m = twoPow 53
  · rw [if_pos htop] at h
    dsimp only at h
    split at h
    · cases h
    · next hgreatest =>
      cases h
      exact ⟨by decide, by omega, not_lt.1 hgreatest, .inl le_rfl⟩
  · rw [if_neg htop] at h
    dsimp only at h
    split at h
    · cases h
    · next hgreatest =>
      cases h
      exact ⟨lt_of_le_of_ne hbound htop, hleast, not_lt.1 hgreatest, hleading.symm⟩

/-- A numeral is read as a canonical number, unless it is too large for all of them. -/
theorem isCanonical_of_ofDecimal {negative sign : Bool} {digits : Nat} {power : Int}
    (h : ofDecimal negative digits power = .finite sign mantissa exponent) :
    IsCanonical mantissa exponent := by
  have hzero : IsCanonical 0 minExponent := ⟨by decide, le_rfl, by decide, .inr rfl⟩
  unfold ofDecimal at h
  split at h
  · cases h
    exact hzero
  split at h
  · cases h
  split at h
  · cases h
    exact hzero
  · next hdigits _ _ =>
    exact isCanonical_of_ofRatio (Nat.mul_pos (Nat.pos_of_ne_zero hdigits) (tenPow_pos _))
      (tenPow_pos _) h

end Rounding

end DartModels.Binary64
