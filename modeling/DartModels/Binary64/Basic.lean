/-! # Binary64 numbers

The values of the 64-bit binary format, with exact integer mantissas, and the rounding of decimal
numerals to the nearest of them.
-/

namespace DartModels

/-- A finite value is `mantissa * 2 ^ exponent`, with a mantissa below `2 ^ 53`. -/
inductive Binary64
  | nan
  | infinite (negative : Bool)
  | finite (negative : Bool) (mantissa : Nat) (exponent : Int)
  deriving DecidableEq, Repr

namespace Binary64

/-- The exponent of the smallest positive value. -/
def minExponent : Int := -1074

/-- The exponent of the largest finite value. -/
def maxExponent : Int := 971

def zero (negative : Bool) : Binary64 :=
  .finite negative 0 minExponent

/-- The power of two with the positive part of the exponent. -/
def twoPow (e : Int) : Nat :=
  Nat.pow 2 e.toNat

/-- The power of ten with the positive part of the exponent. -/
def tenPow (e : Int) : Nat :=
  Nat.pow 10 e.toNat

/-- The integer nearest to `num / den`; a tie goes to the even one. -/
def roundDiv (num den : Nat) : Nat :=
  let q := num / den
  let r := num % den
  if 2 * r < den || (2 * r = den && q % 2 = 0) then q else q + 1

/-- The exponent of the leading binary digit of `num / den`. -/
def leadExponent (num den : Nat) : Int :=
  let lead : Int := num.log2 - den.log2
  if num * twoPow (-lead) < den * twoPow lead then lead - 1 else lead

/-- The value nearest to the positive quotient `num / den`. -/
def ofRatio (negative : Bool) (num den : Nat) : Binary64 :=
  let e := max (leadExponent num den - 52) minExponent
  let m := roundDiv (num * twoPow (-e)) (den * twoPow e)
  let (m, e) := if m = twoPow 53 then (twoPow 52, e + 1) else (m, e)
  if maxExponent < e then .infinite negative else .finite negative m e

/-- The value nearest to `digits * 10 ^ exponent`. Exponents far outside the range are settled
without computing the power. -/
def ofDecimal (negative : Bool) (digits : Nat) (exponent : Int) : Binary64 :=
  if digits = 0 then zero negative
  else if 400 < exponent then .infinite negative
  else if (digits.log2 : Int) + 1 + 3 * exponent < -1080 then zero negative
  else ofRatio negative (digits * tenPow exponent) (tenPow (-exponent))

theorem roundDiv_near (num den : Nat) (h : 0 < den) :
    2 * (roundDiv num den * den) ≤ 2 * num + den ∧ 2 * num ≤ 2 * (roundDiv num den * den) + den := by
  have e : den * (num / den) + num % den = num := Nat.div_add_mod num den
  have l : num % den < den := Nat.mod_lt _ h
  simp only [roundDiv]
  generalize num / den = q at *
  generalize num % den = r at *
  have hq : (q + 1) * den = den * q + den := by rw [Nat.add_mul, Nat.mul_comm]; simp
  have hq' : q * den = den * q := Nat.mul_comm ..
  generalize den * q = p at *
  split
  · rename_i hc
    simp only [Bool.or_eq_true, Bool.and_eq_true, decide_eq_true_eq] at hc
    omega
  · rename_i hc
    simp only [Bool.or_eq_true, Bool.and_eq_true, decide_eq_true_eq, not_or] at hc
    omega

end Binary64

end DartModels
