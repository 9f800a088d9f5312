import DartModels.Binary64.Shortest
import Mathlib.Tactic.Common

/-! # The characters of numbers

Numbers are written with digits, a point, signs and the mark of an exponent; the values that have no
digits bring the characters of their names.
-/

namespace DartModels.Binary64

/-- The characters with which numbers are written. -/
def isNumeralChar (c : Char) : Bool :=
  c.isDigit || ['.', 'e', '+', '-'].contains c

variable {c : Char}

theorem isNumeralChar_of_isDigit (h : c.isDigit = true) : isNumeralChar c = true := by
  rw [isNumeralChar, h, Bool.true_or]

theorem isDigit_of_mem_repr {n : Nat} (h : c ∈ (Nat.repr n).toList) : c.isDigit = true := by
  rw [Nat.toList_repr] at h
  exact Nat.isDigit_of_mem_toDigits (by decide) (by decide) h

theorem isDigit_of_mem_zeros {n : Int} (h : c ∈ zeros n) : c.isDigit = true := by
  rw [(List.mem_replicate.1 h).2]
  rfl

theorem isNumeralChar_of_mem_int {n : Int} (h : c ∈ (toString n).toList) :
    isNumeralChar c = true := by
  cases n with
  | ofNat n => exact isNumeralChar_of_isDigit (isDigit_of_mem_repr h)
  | negSucc n =>
    have htext : (toString (Int.negSucc n)).toList = '-' :: (Nat.repr (n + 1)).toList :=
      String.toList_append
    rw [htext] at h
    rcases List.mem_cons.1 h with rfl | h
    · decide
    · exact isNumeralChar_of_isDigit (isDigit_of_mem_repr h)

theorem mem_of_mem_stripZeros {s : List Char} (h : c ∈ stripZeros s) : c ∈ s := by
  induction s with
  | nil => exact h
  | cons d rest ih =>
    unfold stripZeros at h
    split at h
    · split at h
      · cases h
      · exact List.mem_singleton.1 h ▸ List.mem_cons_self
    · rcases List.mem_cons.1 h with rfl | h
      · exact List.mem_cons_self
      · exact List.mem_cons_of_mem _ (ih h)

theorem isNumeralChar_of_mem_layout {digits : List Char} (h : ∀ c ∈ digits, isNumeralChar c = true)
    (lead : Int) : ∀ c ∈ layout digits lead, isNumeralChar c = true := by
  have hpoint : isNumeralChar '.' = true ∧ isNumeralChar '0' = true := by decide
  have hmark : ∀ c ∈ ['e', if lead < 0 then '-' else '+'], isNumeralChar c = true := by
    split <;> exact List.all_eq_true.1 rfl
  have hzeros (n : Int) : ∀ c ∈ zeros n, isNumeralChar c = true :=
    fun _ hc => isNumeralChar_of_isDigit (isDigit_of_mem_zeros hc)
  unfold layout
  dsimp only
  split
  · simp only [List.forall_mem_append]
    refine ⟨⟨⟨?_, hmark⟩, hzeros _⟩, fun _ hc => isNumeralChar_of_isDigit (isDigit_of_mem_repr hc)⟩
    split
    · simp only [List.forall_mem_cons] at h ⊢
      exact ⟨h.1, hpoint.1, h.2⟩
    · exact h
  · split
    · simp only [List.cons_append, List.forall_mem_cons, List.forall_mem_append]
      exact ⟨hpoint.2, hpoint.1, hzeros _, h⟩
    · split
      · simp only [List.forall_mem_append]
        exact ⟨⟨h, hzeros _⟩, List.all_eq_true.1 rfl⟩
      · simp only [List.forall_mem_append, List.forall_mem_cons]
        exact ⟨fun c hc => h c (List.mem_of_mem_take hc), hpoint.1,
          fun c hc => h c (List.mem_of_mem_drop hc)⟩

theorem isNumeralChar_of_mem_magnitudeText {mantissa : Nat} {exponent : Int}
    (h : c ∈ magnitudeText mantissa exponent) : isNumeralChar c = true := by
  unfold magnitudeText at h
  split at h
  · exact List.all_eq_true.1 (by decide : ['0', '.', '0'].all isNumeralChar = true) c h
  · have hdigits : ∀ d ∈ stripZeros (Nat.repr (shortest mantissa exponent).digits).toList,
        isNumeralChar d = true :=
      fun _ hd => isNumeralChar_of_isDigit (isDigit_of_mem_repr (mem_of_mem_stripZeros hd))
    exact isNumeralChar_of_mem_layout hdigits _ c h

theorem mem_text_cases {names : SpecialNames} {x : Binary64} (h : c ∈ (x.text names).toList) :
    isNumeralChar c = true ∨ c ∈ names.nan.toList ∨ c ∈ names.infinity.toList := by
  have hsign (negative : Bool) (h : c ∈ (if negative then "-" else "").toList) :
      isNumeralChar c = true := by
    cases negative with
    | false => exact absurd h (by simp)
    | true => exact List.mem_singleton.1 h ▸ rfl
  cases x with
  | nan => exact .inr (.inl h)
  | infinite negative =>
    rw [text, String.toList_append, List.mem_append] at h
    exact h.imp (hsign negative) .inr
  | finite negative mantissa exponent =>
    rw [text, String.toList_append, List.mem_append, String.toList_ofList] at h
    exact .inl (h.elim (hsign negative) isNumeralChar_of_mem_magnitudeText)

end DartModels.Binary64
