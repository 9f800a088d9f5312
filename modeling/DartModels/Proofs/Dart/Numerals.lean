import DartModels.Json.Printer
import DartModels.Json.Reader
import DartModels.Proofs.Binary64.Characters
import DartModels.Proofs.Binary64.Shortest
import DartModels.Proofs.Dart.Objects

/-! # Reading number literals

A number literal is an integer unless it has a fraction or an exponent; then it is the nearest
number of the binary format. What is written for a finite number is read as the same number.
-/

namespace DartModels.Dart

open Binary64 Json

/-- The parts of a number literal without sign. -/
structure Numeral where
  isInteger : Bool
  digits : Nat
  power : Int
  deriving DecidableEq, Repr

/-- The numeral at the front of a text, and what follows it. -/
def readNumeral (s : List Char) : Option (Numeral × List Char) :=
  match integerPart s with
  | none => none
  | some (whole, rest) =>
    let (fraction, rest) := fractionPart rest
    let (power, rest) := exponentPart rest
    some (⟨fraction.isEmpty && power.isNone, digitsValue (whole ++ fraction),
      power.getD 0 - fraction.length⟩, rest)

namespace Numeral

/-- The rational number that a numeral denotes. -/
def value (n : Numeral) : ℚ :=
  n.digits * 10 ^ n.power

/-- The number that a numeral stands for in the generated program. -/
def toScalar (negative : Bool) (n : Numeral) : Scalar :=
  if n.isInteger then .int (if negative then -n.digits else n.digits)
  else .float (.ofDecimal negative n.digits n.power)

end Numeral

/-- A text that a numeral before it cannot run into. -/
def EndsNumeral (rest : List Char) : Prop :=
  rest.head?.any (fun c => c.isDigit || c = '.' || c = 'e' || c = 'E') = false

section Digits

variable {ds es : List Char}

theorem digitsValue_eq (ds : List Char) : digitsValue ds = Nat.ofDigitChars 10 ds 0 := by
  rw [Nat.ofDigitChars_eq_foldl, digitsValue]
  congr
  funext n c
  rw [Nat.mul_comm]
  rfl

theorem digitsValue_append (ds es : List Char) :
    digitsValue (ds ++ es) = digitsValue ds * 10 ^ es.length + digitsValue es := by
  rw [digitsValue_eq, digitsValue_eq, digitsValue_eq, Nat.ofDigitChars_append,
    Nat.ofDigitChars_eq_ofDigitChars_zero, Nat.mul_comm]

theorem digitsValue_zeros (n : Int) : digitsValue (zeros n) = 0 := by
  rw [digitsValue_eq, zeros, Nat.ofDigitChars_replicate_zero, Nat.mul_zero]

theorem digitsValue_repr (n : Nat) : digitsValue (Nat.repr n).toList = n := by
  rw [digitsValue_eq, Nat.toList_repr, Nat.ofDigitChars_ten_toDigits]

/-- A positive number does not start with a zero. -/
theorem head?_repr {n : Nat} (h : 0 < n) : (Nat.repr n).toList.head? ≠ some '0' := by
  rw [Nat.toList_repr]
  induction n using Nat.strong_induction_on with
  | _ n ih =>
    rw [Nat.toDigits_eq_if (by decide)]
    split
    · next hlt =>
      have hdigit : ∀ n < 10, 0 < n → n.digitChar ≠ '0' := by decide
      simpa using hdigit n hlt h
    · rw [List.head?_append_of_ne_nil _ Nat.toDigits_ne_nil]
      exact ih (n / 10) (Nat.div_lt_self h (by decide)) (by omega)

/-- Stripping removes zeros from the end only. -/
theorem exists_stripZeros_append (ds : List Char) :
    ∃ n, ds = stripZeros ds ++ List.replicate n '0' := by
  induction ds with
  | nil => exact ⟨0, rfl⟩
  | cons c rest ih =>
    obtain ⟨n, hn⟩ := ih
    unfold stripZeros
    split
    · next hstripped =>
      rw [hstripped, List.nil_append] at hn
      split
      · next hc => exact ⟨n + 1, by rw [hc, hn, List.nil_append, List.replicate_succ]⟩
      · exact ⟨n, by rw [hn]; rfl⟩
    · next kept _ => exact ⟨n, congrArg (c :: ·) hn⟩

end Digits

section Parts

variable {ds rest : List Char}

theorem integerPart_append (hds : ∀ c ∈ ds, c.isDigit = true)
    (hlead : ds = ['0'] ∨ ds ≠ [] ∧ ds.head? ≠ some '0')
    (hrest : rest.head?.any Char.isDigit = false) : integerPart (ds ++ rest) = some (ds, rest) := by
  rcases hlead with rfl | ⟨hne, hhead⟩
  · rfl
  · cases ds with
    | nil => exact absurd rfl hne
    | cons c ds =>
      obtain ⟨hc, hds⟩ := List.forall_mem_cons.1 hds
      have hzero : c ≠ '0' := fun h => hhead (congrArg some h)
      rw [List.cons_append, integerPart, if_neg hzero, if_pos hc, takeWhile_run hds hrest,
        dropWhile_run hds hrest]

theorem fractionPart_point (hds : ∀ c ∈ ds, c.isDigit = true) (hne : ds ≠ [])
    (hrest : rest.head?.any Char.isDigit = false) :
    fractionPart ('.' :: (ds ++ rest)) = (ds, rest) := by
  rw [fractionPart, takeWhile_run hds hrest, dropWhile_run hds hrest]
  cases ds with
  | nil => exact absurd rfl hne
  | cons => rfl

theorem fractionPart_of_head (h : rest.head? ≠ some '.') : fractionPart rest = ([], rest) := by
  unfold fractionPart
  split
  · exact absurd rfl h
  · rfl

theorem exponentPart_mark (negative : Bool) (hds : ∀ c ∈ ds, c.isDigit = true) (hne : ds ≠ [])
    (hrest : rest.head?.any Char.isDigit = false) :
    exponentPart ('e' :: (if negative then '-' else '+') :: (ds ++ rest)) =
      (some (if negative then -(digitsValue ds : Int) else digitsValue ds), rest) := by
  unfold exponentPart
  dsimp only
  rw [if_pos (by decide)]
  cases negative <;>
    simp only [Bool.false_eq_true, if_false, if_true, takeWhile_run hds hrest,
      dropWhile_run hds hrest]

theorem exponentPart_of_head (h : rest.head?.any (fun c => c = 'e' || c = 'E') = false) :
    exponentPart rest = (none, rest) := by
  unfold exponentPart
  split
  · rfl
  · rw [List.head?_cons, Option.any_some] at h
    rw [if_neg (by simpa using h)]

end Parts

section Layout

variable {ds rest : List Char} {lead : Int}

/-- A numeral with digits `ds` of which the first is worth `10 ^ lead`. -/
def Denotes (text : List Char) (ds : List Char) (lead : Int) : Prop :=
  ∀ rest, EndsNumeral rest → ∃ n, readNumeral (text ++ rest) = some (n, rest) ∧
    n.isInteger = false ∧ n.value = digitsValue ds * 10 ^ (lead + 1 - ds.length)

theorem EndsNumeral.digit (h : EndsNumeral rest) : rest.head?.any Char.isDigit = false := by
  cases rest <;> simp_all [EndsNumeral]

theorem EndsNumeral.mark (h : EndsNumeral rest) :
    rest.head?.any (fun c => c = 'e' || c = 'E') = false := by
  cases rest <;> simp_all [EndsNumeral]

theorem EndsNumeral.point (h : EndsNumeral rest) : rest.head? ≠ some '.' := by
  cases rest <;> simp_all [EndsNumeral]

/-- A numeral with a fraction and without exponent. -/
theorem readNumeral_point {whole fraction : List Char} (hwhole : ∀ c ∈ whole, c.isDigit = true)
    (hlead : whole = ['0'] ∨ whole ≠ [] ∧ whole.head? ≠ some '0')
    (hfraction : ∀ c ∈ fraction, c.isDigit = true) (hne : fraction ≠ []) (h : EndsNumeral rest) :
    readNumeral (whole ++ '.' :: (fraction ++ rest)) =
      some (⟨false, digitsValue (whole ++ fraction), -fraction.length⟩, rest) := by
  rw [readNumeral, integerPart_append hwhole hlead rfl]
  dsimp only
  rw [fractionPart_point hfraction hne h.digit]
  dsimp only
  rw [exponentPart_of_head h.mark]
  cases fraction with
  | nil => exact absurd rfl hne
  | cons c fraction => simp

/-- A numeral of one digit, perhaps a fraction, and an exponent. -/
theorem readNumeral_mark {c : Char} {fraction power tail : List Char} (negative : Bool)
    (hc : c.isDigit = true) (hzero : c ≠ '0') (htail : tail.head?.any Char.isDigit = false)
    (hfraction : fractionPart tail =
      (fraction, 'e' :: (if negative then '-' else '+') :: (power ++ rest)))
    (hpower : ∀ c ∈ power, c.isDigit = true) (hne : power ≠ []) (h : EndsNumeral rest) :
    readNumeral (c :: tail) =
      some (⟨false, digitsValue (c :: fraction), (if negative then -(digitsValue power : Int)
        else digitsValue power) - fraction.length⟩, rest) := by
  have hwhole : integerPart ([c] ++ tail) = some ([c], tail) :=
    integerPart_append (List.forall_mem_singleton.2 hc) (.inr ⟨by simp, by simpa using hzero⟩) htail
  rw [List.singleton_append] at hwhole
  rw [readNumeral, hwhole]
  dsimp only
  rw [hfraction]
  dsimp only
  rw [exponentPart_mark negative hpower hne h.digit, Option.isNone_some, Bool.and_false,
    Option.getD_some, List.singleton_append]

theorem digitsValue_exponent (lead : Int) :
    (if lead < 0 then -(digitsValue (zeros (2 - (Nat.repr lead.natAbs).toList.length) ++
      (Nat.repr lead.natAbs).toList) : Int) else digitsValue (zeros (2 -
        (Nat.repr lead.natAbs).toList.length) ++ (Nat.repr lead.natAbs).toList)) = lead := by
  rw [digitsValue_append, digitsValue_zeros, digitsValue_repr]
  split <;> omega

/-- Very small and very large numbers have an exponent. -/
theorem denotes_layout_exponent (hds : ∀ c ∈ ds, c.isDigit = true) (hne : ds ≠ [])
    (hhead : ds.head? ≠ some '0') (hlead : lead < -4 ∨ 16 ≤ lead) :
    Denotes (layout ds lead) ds lead := by
  intro rest hrest
  have hpower : ∀ c ∈ zeros (2 - (Nat.repr lead.natAbs).toList.length) ++
      (Nat.repr lead.natAbs).toList, c.isDigit = true := fun c hc =>
    (List.mem_append.1 hc).elim isDigit_of_mem_zeros isDigit_of_mem_repr
  have hpowerne : zeros (2 - (Nat.repr lead.natAbs).toList.length) ++
      (Nat.repr lead.natAbs).toList ≠ [] := by
    simp
  have hvalue := digitsValue_exponent lead
  unfold layout
  dsimp only
  rw [if_pos (by simpa using hlead)]
  generalize zeros (2 - (Nat.repr lead.natAbs).toList.length) = padding at *
  generalize (Nat.repr lead.natAbs).toList = power at *
  have hsign : (if decide (lead < 0) = true then -(digitsValue (padding ++ power) : Int)
      else digitsValue (padding ++ power)) = lead := by simpa using hvalue
  cases ds with
  | nil => exact absurd rfl hne
  | cons c ds =>
    obtain ⟨hc, hds⟩ := List.forall_mem_cons.1 hds
    have hzero : c ≠ '0' := fun h => hhead (congrArg some h)
    cases ds with
    | nil =>
      have htail : fractionPart ('e' :: (if decide (lead < 0) then '-' else '+') ::
          (padding ++ power ++ rest)) = ([], _) := fractionPart_of_head (by simp)
      have hnumeral := readNumeral_mark _ hc hzero rfl htail hpower hpowerne hrest
      refine ⟨_, by simpa using hnumeral, rfl, ?_⟩
      simp [Numeral.value, hvalue]
    | cons c' ds =>
      have htail : fractionPart ('.' :: (c' :: ds ++ ('e' ::
          (if decide (lead < 0) then '-' else '+') :: (padding ++ power ++ rest)))) =
            (c' :: ds, _) :=
        fractionPart_point hds (by simp) rfl
      have hnumeral := readNumeral_mark _ hc hzero rfl htail hpower hpowerne hrest
      rw [hsign] at hnumeral
      refine ⟨_, by simpa using hnumeral, rfl, ?_⟩
      rw [List.length_cons, List.length_cons]
      dsimp only [Numeral.value]
      congr 2
      omega

/-- Digits around a point. -/
theorem denotes_point {whole fraction : List Char} (hwhole : ∀ c ∈ whole, c.isDigit = true)
    (hhead : whole = ['0'] ∨ whole ≠ [] ∧ whole.head? ≠ some '0')
    (hfraction : ∀ c ∈ fraction, c.isDigit = true) (hne : fraction ≠ [])
    (hvalue : (digitsValue (whole ++ fraction) : ℚ) * 10 ^ (-fraction.length : Int) =
      digitsValue ds * 10 ^ (lead + 1 - ds.length)) :
    Denotes (whole ++ '.' :: fraction) ds lead := by
  intro rest hrest
  rw [List.append_assoc, List.cons_append]
  exact ⟨_, readNumeral_point hwhole hhead hfraction hne hrest, rfl, hvalue⟩

theorem ten_pow_toNat {i : Int} (h : 0 ≤ i) : (10 : ℚ) ^ i.toNat = 10 ^ i := by
  rw [← zpow_natCast, Int.toNat_of_nonneg h]

theorem length_zeros (i : Int) : (zeros i).length = i.toNat :=
  List.length_replicate

theorem denotes_layout (hds : ∀ c ∈ ds, c.isDigit = true) (hne : ds ≠ [])
    (hhead : ds.head? ≠ some '0') : Denotes (layout ds lead) ds lead := by
  by_cases hlarge : lead < -4 ∨ 16 ≤ lead
  · exact denotes_layout_exponent hds hne hhead hlarge
  unfold layout
  dsimp only
  rw [if_neg (by simpa using hlarge)]
  split
  · -- a number below one has zeros in front
    next hlead =>
    have hfraction : ∀ c ∈ zeros (-lead - 1) ++ ds, c.isDigit = true := fun c hc =>
      (List.mem_append.1 hc).elim isDigit_of_mem_zeros (hds c)
    change Denotes (['0'] ++ '.' :: (zeros (-lead - 1) ++ ds)) ds lead
    refine denotes_point (List.forall_mem_singleton.2 rfl) (.inl rfl) hfraction (by simp [hne]) ?_
    have hdigits : digitsValue (['0'] ++ (zeros (-lead - 1) ++ ds)) = digitsValue ds := by
      rw [digitsValue_append, digitsValue_append, digitsValue_zeros]
      simp [digitsValue]
    rw [hdigits, List.length_append, length_zeros]
    congr 2
    omega
  split
  · -- a whole number has zeros behind
    next hcount =>
    have hwhole : ∀ c ∈ ds ++ zeros (lead + 1 - ds.length), c.isDigit = true := fun c hc =>
      (List.mem_append.1 hc).elim (hds c) isDigit_of_mem_zeros
    refine denotes_point hwhole (.inr ⟨by simp [hne], ?_⟩) (List.forall_mem_singleton.2 rfl)
      (by simp) ?_
    · rwa [List.head?_append_of_ne_nil _ hne]
    · have hzeros : (0 : Int) ≤ lead + 1 - ds.length := by omega
      have hdigits : digitsValue (ds ++ zeros (lead + 1 - ds.length) ++ ['0']) =
          digitsValue ds * 10 ^ (lead + 1 - ds.length).toNat * 10 := by
        rw [digitsValue_append, digitsValue_append, digitsValue_zeros, length_zeros]
        simp [digitsValue]
      rw [hdigits]
      push_cast
      rw [ten_pow_toNat hzeros]
      simp
  · next hlead hcount =>
    have htake : ds.take (lead.toNat + 1) ≠ [] := by simp [hne]
    refine denotes_point (fun c hc => hds c (List.mem_of_mem_take hc)) (.inr ⟨htake, ?_⟩)
      (fun c hc => hds c (List.mem_of_mem_drop hc)) ?_ ?_
    · rwa [List.head?_take, if_neg (by omega)]
    · rw [Ne, List.drop_eq_nil_iff]
      omega
    · rw [List.take_append_drop, List.length_drop]
      congr 2
      omega

end Layout

section Numbers

variable {rest : List Char}

/-- The number literal at the front of a text, and what follows it. -/
def readNumber : List Char → Option (Scalar × List Char)
  | '-' :: s => (readNumeral s).map fun r => (r.1.toScalar true, r.2)
  | s => (readNumeral s).map fun r => (r.1.toScalar false, r.2)

theorem readNumeral_repr (n : Nat) (h : EndsNumeral rest) :
    readNumeral ((Nat.repr n).toList ++ rest) = some (⟨true, n, 0⟩, rest) := by
  have hlead : (Nat.repr n).toList = ['0'] ∨
      (Nat.repr n).toList ≠ [] ∧ (Nat.repr n).toList.head? ≠ some '0' := by
    by_cases hn : n = 0
    · exact .inl (by rw [hn]; rfl)
    · exact .inr ⟨by simp, head?_repr (Nat.pos_of_ne_zero hn)⟩
  rw [readNumeral, integerPart_append (fun c => isDigit_of_mem_repr) hlead h.digit]
  dsimp only
  rw [fractionPart_of_head h.point]
  dsimp only
  rw [exponentPart_of_head h.mark, List.append_nil, digitsValue_repr]
  rfl

/-- The digits of a decimal without the zeros at the end. -/
theorem denotes_stripZeros {d : Decimal} (hd : 0 < d.digits) :
    Denotes (layout (stripZeros (Nat.repr d.digits).toList)
      (d.exponent + (Nat.repr d.digits).toList.length - 1))
      (stripZeros (Nat.repr d.digits).toList)
      (d.exponent + (Nat.repr d.digits).toList.length - 1) ∧
    (digitsValue (stripZeros (Nat.repr d.digits).toList) : ℚ) *
      10 ^ (d.exponent + (Nat.repr d.digits).toList.length - 1 + 1 -
        (stripZeros (Nat.repr d.digits).toList).length) = d.value := by
  have hhead := head?_repr hd
  have hdigits : ∀ c ∈ (Nat.repr d.digits).toList, c.isDigit = true := fun c => isDigit_of_mem_repr
  have hvalue := digitsValue_repr d.digits
  have hne : (Nat.repr d.digits).toList ≠ [] := by simp
  obtain ⟨n, hn⟩ := exists_stripZeros_append (Nat.repr d.digits).toList
  generalize (Nat.repr d.digits).toList = digits at *
  generalize stripZeros digits = stripped at *
  subst hn
  have hstripped : stripped ≠ [] := by
    rintro rfl
    cases n with
    | zero => exact hne rfl
    | succ n => exact hhead rfl
  constructor
  · refine denotes_layout (fun c hc => hdigits c (List.mem_append_left _ hc)) hstripped ?_
    rwa [List.head?_append_of_ne_nil _ hstripped] at hhead
  · have hzeros : List.replicate n '0' = zeros n := by rw [zeros, Int.toNat_natCast]
    rw [hzeros, digitsValue_append, digitsValue_zeros, length_zeros, Int.toNat_natCast,
      Nat.add_zero] at hvalue
    have hpower : d.exponent + ((stripped ++ List.replicate n '0').length : Nat) - 1 + 1 -
        stripped.length = n + d.exponent := by
      rw [List.length_append, List.length_replicate]
      omega
    rw [hpower, zpow_add₀ (by norm_num), zpow_natCast, Decimal.value, ← hvalue]
    push_cast
    ring

/-- The digits that are written for a positive number denote a decimal that rounds to it. -/
theorem readNumeral_magnitudeText {mantissa : Nat} {exponent : Int} (hmantissa : 0 < mantissa)
    (h : EndsNumeral rest) : ∃ n, readNumeral (magnitudeText mantissa exponent ++ rest) =
      some (n, rest) ∧ n.isInteger = false ∧ RoundsTo mantissa exponent n.value := by
  have hshortest : RoundsTo mantissa exponent (shortest mantissa exponent).value :=
    roundsTo_shortest hmantissa
  rw [magnitudeText, if_neg hmantissa.ne']
  dsimp only
  generalize shortest mantissa exponent = d at *
  have hd : 0 < d.digits := by
    refine Nat.pos_of_ne_zero fun hzero => ?_
    have hpos : (1 : ℚ) ≤ mantissa := by exact_mod_cast hmantissa
    have hhalf := hshortest.half_le
    rw [Decimal.value, hzero, Nat.cast_zero, zero_mul, zero_div] at hhalf
    linarith
  obtain ⟨hdenotes, hvalue⟩ := denotes_stripZeros hd
  obtain ⟨n, hn, hinteger, hnvalue⟩ := hdenotes rest h
  exact ⟨n, hn, hinteger, by rwa [hnvalue, hvalue]⟩

/-- A sign in front of a numeral is read as such, and its absence too. -/
theorem readNumber_of_readNumeral {s : List Char} {n : Numeral}
    (h : readNumeral s = some (n, rest)) (negative : Bool) :
    readNumber ((if negative then "-" else "").toList ++ s) =
      some (n.toScalar negative, rest) := by
  cases negative with
  | true => exact congrArg (Option.map _) h
  | false =>
    change readNumber s = _
    unfold readNumber
    split
    · cases h
    · rw [h, Option.map_some]

theorem readNumber_int (n : Int) (h : EndsNumeral rest) :
    readNumber ((toString n).toList ++ rest) = some (.int n, rest) := by
  cases n with
  | ofNat n => exact readNumber_of_readNumeral (readNumeral_repr n h) false
  | negSucc n =>
    have htext : toString (Int.negSucc n) = "-" ++ Nat.repr (n + 1) := rfl
    rw [htext, String.toList_append, List.append_assoc]
    exact readNumber_of_readNumeral (readNumeral_repr (n + 1) h) true

/-- Reading what is written for a finite number gives that very number. -/
theorem readNumber_float {negative : Bool} {mantissa : Nat} {exponent : Int}
    (hc : IsCanonical mantissa exponent) (h : EndsNumeral rest) :
    readNumber ((Binary64.text jsonNumbers (.finite negative mantissa exponent)).toList ++ rest) =
      some (.float (.finite negative mantissa exponent), rest) := by
  have hread : ∃ n, readNumeral (magnitudeText mantissa exponent ++ rest) = some (n, rest) ∧
      n.toScalar negative = .float (.finite negative mantissa exponent) := by
    rcases Nat.eq_zero_or_pos mantissa with rfl | hmantissa
    · refine ⟨⟨false, 0, -1⟩, ?_, ?_⟩
      · exact readNumeral_point (List.forall_mem_singleton.2 rfl) (.inl rfl)
          (List.forall_mem_singleton.2 rfl) (by simp) h
      · rw [hc.leading.resolve_left (by decide)]
        rfl
    · obtain ⟨n, hn, hinteger, hrounds⟩ := readNumeral_magnitudeText hmantissa h
      refine ⟨n, hn, ?_⟩
      rw [Numeral.toScalar, if_neg (by simp [hinteger]),
        ofDecimal_of_roundsTo negative hc hmantissa hrounds]
  obtain ⟨n, hn, hscalar⟩ := hread
  rw [Binary64.text, String.toList_append, String.toList_ofList, List.append_assoc,
    readNumber_of_readNumeral hn, hscalar]

end Numbers

end DartModels.Dart
