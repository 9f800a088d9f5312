import DartModels.Binary64.Basic

/-! # Shortest decimals

A finite value is written with the fewest digits that read back to it, the nearest to the value
among those. Values from `10 ^ -4` up to below `10 ^ 16` are written positionally, the others with
an exponent of at least two digits.
-/

namespace DartModels.Binary64

/-- The number `digits * 10 ^ exponent`. -/
structure Decimal where
  digits : Nat
  exponent : Int
  deriving DecidableEq, Repr

/-- Compares `a * 10 ^ i` with `b * 2 ^ j`. -/
def compareScaled (a : Nat) (i : Int) (b : Nat) (j : Int) : Ordering :=
  compare (a * tenPow i * twoPow (-j)) (b * twoPow j * tenPow (-i))

/-- Whether a decimal lies among the numbers that round to `mantissa * 2 ^ exponent`. -/
def readsBack (mantissa : Nat) (exponent : Int) (d : Decimal) : Bool :=
  let below := if mantissa = twoPow 52 && minExponent < exponent then 1 else 2
  let low := compareScaled d.digits d.exponent (4 * mantissa - below) (exponent - 2)
  let high := compareScaled d.digits d.exponent (4 * mantissa + 2) (exponent - 2)
  if mantissa % 2 = 0 then low != .lt && high != .gt else low == .gt && high == .lt

/-- The least exponent of ten above the value, looked for next to the binary estimate. -/
def decimalScale (mantissa : Nat) (exponent : Int) : Int :=
  let estimate := (((mantissa.log2 : Int) + exponent) * 30103).fdiv 100000
  let above := fun k : Int => compareScaled 1 k mantissa exponent == .gt
  if above estimate then estimate
  else if above (estimate + 1) then estimate + 1
  else estimate + 2

/-- The nearer of the neighbours of the value on the grid `10 ^ grid` that read back. -/
def onGrid (mantissa : Nat) (exponent grid : Int) : Option Decimal :=
  let num := mantissa * twoPow exponent * tenPow (-grid)
  let den := twoPow (-exponent) * tenPow grid
  let floor : Decimal := ⟨num / den, grid⟩
  let ceiling : Decimal := ⟨num / den + 1, grid⟩
  match readsBack mantissa exponent floor, readsBack mantissa exponent ceiling with
  | true, true => some ⟨roundDiv num den, grid⟩
  | true, false => some floor
  | false, true => some ceiling
  | false, false => none

/-- The exact decimal value. -/
def exactDecimal (mantissa : Nat) (exponent : Int) : Decimal :=
  if exponent < 0 then ⟨mantissa * Nat.pow 5 (-exponent).toNat, exponent⟩
  else ⟨mantissa * twoPow exponent, 0⟩

/-- The shortest decimal of a positive value; seventeen digits are always enough. -/
def shortest (mantissa : Nat) (exponent : Int) : Decimal :=
  let scale := decimalScale mantissa exponent
  match (List.range 17).findSome? fun n : Nat => onGrid mantissa exponent (scale - n - 1) with
  | some d => d
  | none => exactDecimal mantissa exponent

def stripZeros : List Char → List Char
  | [] => []
  | c :: rest =>
    match stripZeros rest with
    | [] => if c = '0' then [] else [c]
    | kept => c :: kept

def zeros (n : Int) : List Char :=
  List.replicate n.toNat '0'

/-- Digits laid out around the point, `lead` being the power of ten of the first one. -/
def layout (digits : List Char) (lead : Int) : List Char :=
  let count : Int := digits.length
  if lead < -4 || 16 ≤ lead then
    let fraction := match digits with
      | d :: d' :: rest => d :: '.' :: d' :: rest
      | digits => digits
    let power := (Nat.repr lead.natAbs).toList
    fraction ++ ['e', if lead < 0 then '-' else '+'] ++ zeros (2 - power.length) ++ power
  else if lead < 0 then '0' :: '.' :: zeros (-lead - 1) ++ digits
  else if count ≤ lead + 1 then digits ++ zeros (lead + 1 - count) ++ ['.', '0']
  else digits.take (lead.toNat + 1) ++ '.' :: digits.drop (lead.toNat + 1)

def magnitudeText (mantissa : Nat) (exponent : Int) : List Char :=
  if mantissa = 0 then ['0', '.', '0']
  else
    let d := shortest mantissa exponent
    let digits := (Nat.repr d.digits).toList
    layout (stripZeros digits) (d.exponent + digits.length - 1)

/-- How a format spells the values that have no digits. -/
structure SpecialNames where
  nan : String
  infinity : String

def text (names : SpecialNames) : Binary64 → String
  | .nan => names.nan
  | .infinite negative => (if negative then "-" else "") ++ names.infinity
  | .finite negative mantissa exponent =>
    (if negative then "-" else "") ++ String.ofList (magnitudeText mantissa exponent)

end DartModels.Binary64
