/-! # Segments

Cutting text at separators, joining it again, and looking for a word in it.
-/

namespace DartModels.Text

/-- The pieces between the characters that satisfy `p`; there is always at least one. -/
def segments (p : Char → Bool) : List Char → List (List Char)
  | [] => [[]]
  | c :: rest =>
    if p c then [] :: segments p rest
    else match segments p rest with
      | [] => [[c]]
      | piece :: pieces => (c :: piece) :: pieces

/-- The pieces of a text between occurrences of one character. -/
def split (sep : Char) (s : String) : List String :=
  (segments (· == sep) s.toList).map String.ofList

/-- Whether a word occurs somewhere in a text. -/
def occursIn (word : List Char) : List Char → Bool
  | [] => word.isEmpty
  | c :: rest => word.isPrefixOf (c :: rest) || occursIn word rest

theorem occursIn_iff {word s : List Char} : occursIn word s = true ↔ word <:+: s := by
  induction s with
  | nil => rw [occursIn, List.isEmpty_iff, List.infix_nil]
  | cons c rest ih =>
    rw [occursIn, Bool.or_eq_true, List.isPrefixOf_iff_prefix, ih, List.infix_cons_iff]

theorem segments_ne_nil (p : Char → Bool) (s : List Char) : segments p s ≠ [] := by
  induction s with
  | nil => simp [segments]
  | cons c rest _ =>
    rw [segments]
    split
    · simp
    · split <;> simp

theorem intercalate_segments (sep : Char) (s : List Char) :
    [sep].intercalate (segments (· == sep) s) = s := by
  induction s with
  | nil => rfl
  | cons c rest ih =>
    rw [segments]
    cases h : segments (· == sep) rest with
    | nil => exact absurd h (segments_ne_nil _ _)
    | cons piece pieces =>
      rw [h] at ih
      by_cases hc : c = sep
      · subst hc
        simp [← ih, List.intercalate]
      · simp only [beq_iff_eq, hc, if_false]
        cases pieces with
        | nil => simpa [List.intercalate, List.intersperse] using ih
        | cons q qs =>
          rw [← ih]
          simp [List.intercalate, List.intersperse]

end DartModels.Text
