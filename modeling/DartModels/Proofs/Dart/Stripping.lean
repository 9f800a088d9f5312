import Mathlib.Data.List.Basic
import DartModels.Dart.Literal
import DartModels.Dart.Structure

/-! # Literals and comments are stripped exactly

Removing literals and comments goes on behind each of them as if the text started there. What is
removed does not depend on what follows.
-/

namespace DartModels.Dart

open Text

/-- A character that starts neither a literal nor a comment. -/
def isPlain (c : Char) : Bool :=
  c != '\'' && c != '"' && c != '/'

variable {c : Char} {s : List Char}

@[simp]
theorem code_nil : code [] = [] := rfl

theorem nonCodeLength_of_isPlain (h : isPlain c = true) (rest : List Char) :
    nonCodeLength (c :: rest) = 0 := by
  unfold nonCodeLength
  split <;> simp_all [isPlain]

/-- Plain text is kept. -/
theorem code_plain_append (h : ∀ c ∈ s, isPlain c = true) (rest : List Char) :
    code (s ++ rest) = s ++ code rest := by
  induction s with
  | nil => rfl
  | cons c s ih =>
    obtain ⟨hc, hs⟩ := List.forall_mem_cons.1 h
    rw [List.cons_append, code, remove_cons (nonCodeLength_of_isPlain hc _), ← code, ih hs,
      List.cons_append]

theorem quotedLength_escaped_append (c : Char) (rest : List Char) :
    quotedLength (escaped c ++ rest) =
      (quotedLength rest).map (· + (escaped c).length) := by
  unfold escaped
  split
  case h_6 h₁ h₂ h₃ h₄ h₅ =>
    rw [List.singleton_append, quotedLength]
    · rw [if_neg h₄, List.length_singleton]
    all_goals grind
  all_goals simp [quotedLength]

theorem quotedLength_flatMap_escaped (s rest : List Char) :
    quotedLength (s.flatMap escaped ++ '\'' :: rest) =
      some ((s.flatMap escaped).length + 1) := by
  induction s with
  | nil => simp [quotedLength]
  | cons c s ih =>
    rw [List.flatMap_cons, List.append_assoc, quotedLength_escaped_append, ih, Option.map_some,
      List.length_append]
    congr 1
    omega

/-- A written literal is removed, whatever it stands for. -/
theorem code_stringLiteral_append (s rest : List Char) :
    code (stringLiteral s ++ rest) = code rest := by
  refine remove_append_match (List.cons_ne_nil _ _) ?_
  have h := quotedLength_flatMap_escaped s rest
  simp [stringLiteral, nonCodeLength, h]

theorem quotedLength_unclosed (h : ∀ c ∈ s, c ∉ ['\'', '\\', '\n']) (rest : List Char) :
    quotedLength (s ++ '\n' :: rest) = none := by
  induction s with
  | nil => simp [quotedLength]
  | cons c s ih =>
    obtain ⟨hc, hs⟩ := List.forall_mem_cons.1 h
    simp only [List.mem_cons, List.not_mem_nil, or_false, not_or] at hc
    rw [List.cons_append, quotedLength, if_neg hc.2.2, ih hs, Option.map_none]
    · exact fun h => hc.1 h
    · exact fun h _ => hc.2.1 h
    · exact fun _ _ h _ => hc.2.1 h

/-- A quote without a partner on its line is kept. -/
theorem code_unclosed_append (h : ∀ c ∈ s, c ∉ ['\'', '\\', '\n']) (rest : List Char) :
    code ('\'' :: (s ++ '\n' :: rest)) = '\'' :: code (s ++ '\n' :: rest) := by
  refine remove_cons ?_
  rw [nonCodeLength, quotedLength_unclosed h, Option.map_none, Option.getD_none]

theorem blockLength_append (h : '"' ∉ s) (rest : List Char) :
    blockLength (s ++ '"' :: '"' :: '"' :: rest) = some (s.length + 3) := by
  induction s with
  | nil => rfl
  | cons c s ih =>
    rw [List.mem_cons, not_or] at h
    rw [List.cons_append, blockLength, ih h.2, Option.map_some, List.length_cons]
    exact fun _ hc => absurd hc.symm h.1

/-- A block between triple quotes is removed. -/
theorem code_block_append (h : '"' ∉ s) (rest : List Char) :
    code ('"' :: '"' :: '"' :: (s ++ '"' :: '"' :: '"' :: rest)) = code rest := by
  have hblock := blockLength_append h rest
  have hsplit : '"' :: '"' :: '"' :: (s ++ '"' :: '"' :: '"' :: rest) =
      ('"' :: '"' :: '"' :: s ++ ['"', '"', '"']) ++ rest := by simp
  rw [hsplit]
  refine remove_append_match (by simp) ?_
  rw [← hsplit, nonCodeLength, hblock]
  simp

/-- A comment is removed up to the end of its line. -/
theorem code_comment_append (h : '\n' ∉ s) (rest : List Char) :
    code ('/' :: '/' :: (s ++ '\n' :: rest)) = '\n' :: code rest := by
  have htake : (s ++ '\n' :: rest).takeWhile (· != '\n') = s := by
    have hs : ∀ c ∈ s, (c != '\n') = true := by
      simp only [bne_iff_ne]
      rintro c hc rfl
      exact h hc
    rw [List.takeWhile_append_of_pos hs, List.takeWhile_cons_of_neg (by simp), List.append_nil]
  have hlength : nonCodeLength ('/' :: '/' :: s ++ '\n' :: rest) = ('/' :: '/' :: s).length := by
    simp [nonCodeLength, htake]
  refine (remove_append_match (List.cons_ne_nil _ _) hlength).trans ?_
  exact remove_cons (nonCodeLength_of_isPlain rfl rest)

end DartModels.Dart
