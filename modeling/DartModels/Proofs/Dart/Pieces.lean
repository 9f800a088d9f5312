import DartModels.Proofs.Dart.Stripping

/-! # Text put together of pieces

Generated text is a sequence of plain code, string literals, blocks between triple quotes and line
comments. However the pieces follow each other and whatever they hold, stripping keeps the plain
code and the line breaks behind the comments, so that the structural check counts the brackets of
plain code and no others.
-/

namespace DartModels.Dart

/-- A piece of text, with what keeps it from running into the next one. -/
inductive Piece
  | plain (text : List Char) (h : ∀ c ∈ text, isPlain c = true)
  | literal (value : List Char)
  | block (inside : List Char) (h : '"' ∉ inside)
  | comment (remark : List Char) (h : '\n' ∉ remark)

namespace Piece

/-- A piece as it is written; the line break that ends a comment belongs to it. -/
def text : Piece → List Char
  | .plain s _ => s
  | .literal value => stringLiteral value
  | .block s _ => '"' :: '"' :: '"' :: (s ++ ['"', '"', '"'])
  | .comment s _ => '/' :: '/' :: (s ++ ['\n'])

/-- What stripping leaves of a piece. -/
def kept : Piece → List Char
  | .plain s _ => s
  | .comment _ _ => ['\n']
  | .literal _ | .block _ _ => []

/-- The plain code of a piece. -/
def plainText : Piece → List Char
  | .plain s _ => s
  | .literal _ | .block _ _ | .comment _ _ => []

end Piece

open Piece

/-- Stripping works on one piece at a time, wherever the piece stands. -/
theorem code_text_append (piece : Piece) (rest : List Char) :
    code (piece.text ++ rest) = piece.kept ++ code rest := by
  cases piece with
  | plain s h => exact code_plain_append h rest
  | literal value => exact code_stringLiteral_append value rest
  | block s h => simpa [text, kept] using code_block_append h rest
  | comment s h => simpa [text, kept] using code_comment_append h rest

theorem code_flatMap_text (pieces : List Piece) :
    code (pieces.flatMap text) = pieces.flatMap kept := by
  induction pieces with
  | nil => rfl
  | cons piece rest ih => rw [List.flatMap_cons, List.flatMap_cons, code_text_append, ih]

/-- Comments leave nothing but line breaks behind. -/
theorem count_flatMap_kept {c : Char} (hc : c ≠ '\n') (pieces : List Piece) :
    (pieces.flatMap kept).count c = (pieces.flatMap plainText).count c := by
  induction pieces with
  | nil => rfl
  | cons piece rest ih =>
    rw [List.flatMap_cons, List.flatMap_cons, List.count_append, List.count_append, ih]
    cases piece with
    | plain s h => rfl
    | literal value => rfl
    | block s h => rfl
    | comment s h =>
      have hline : c ∉ ['\n'] := by simpa using hc
      rw [kept, plainText, List.count_eq_zero_of_not_mem hline, List.count_nil]

/-- The structural check of a text looks at the brackets of `plain` only. -/
structure CountsBracketsOf (plain s : List Char) : Prop where
  ok_iff : checkStructure s = .ok () ↔ declaresType s = true ∧
    plain.count '\x7b' = plain.count '\x7d' ∧ plain.count '(' = plain.count ')'
  braces_iff : ∀ opened closed, checkStructure s = .error (.braces opened closed) ↔
    declaresType s = true ∧ opened = plain.count '\x7b' ∧ closed = plain.count '\x7d' ∧
      opened ≠ closed
  parentheses_iff : ∀ opened closed, checkStructure s = .error (.parentheses opened closed) ↔
    declaresType s = true ∧ plain.count '\x7b' = plain.count '\x7d' ∧
      opened = plain.count '(' ∧ closed = plain.count ')' ∧ opened ≠ closed

theorem countsBracketsOf_of_count_eq {plain s : List Char}
    (h : ∀ c ∈ ['\x7b', '\x7d', '(', ')'], (code s).count c = plain.count c) :
    CountsBracketsOf plain s := by
  simp only [List.forall_mem_cons, List.not_mem_nil, false_implies, implies_true, and_true] at h
  obtain ⟨hopen, hclose, hleft, hright⟩ := h
  cases htype : declaresType s with
  | false =>
    have hcheck : checkStructure s = .error .noTypes := by simp [checkStructure, htype]
    constructor <;> simp [hcheck, htype]
  | true =>
    have hcheck : checkStructure s =
        if plain.count '\x7b' ≠ plain.count '\x7d' then
          .error (.braces (plain.count '\x7b') (plain.count '\x7d'))
        else if plain.count '(' ≠ plain.count ')' then
          .error (.parentheses (plain.count '(') (plain.count ')'))
        else .ok () := by
      simp [checkStructure, htype, hopen, hclose, hleft, hright]
    constructor <;> grind

/-- Stripping is exact on any sequence of pieces. -/
theorem stripping_exact (pieces : List Piece) :
    code (pieces.flatMap text) = pieces.flatMap kept ∧
      CountsBracketsOf (pieces.flatMap plainText) (pieces.flatMap text) := by
  refine ⟨code_flatMap_text pieces, countsBracketsOf_of_count_eq fun c hc => ?_⟩
  rw [code_flatMap_text]
  apply count_flatMap_kept
  rintro rfl
  exact absurd hc (by decide)

end DartModels.Dart
