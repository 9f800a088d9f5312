import Mathlib.Data.List.Basic
import DartModels.Dart.Literal
import DartModels.Naming.Identifier

/-! # Reading identifiers and string literals

An identifier is read as far as its characters go, a string literal up to its closing quote. Only
the escapes that are ever written are read; an interpolation and a line break are errors.
-/

namespace DartModels.Dart

section Runs

variable {α : Type*} {p : α → Bool} {run rest : List α}

theorem takeWhile_run (hrun : ∀ a ∈ run, p a = true) (hrest : rest.head?.any p = false) :
    (run ++ rest).takeWhile p = run := by
  rw [List.takeWhile_append_of_pos hrun]
  cases rest with
  | nil => simp
  | cons a rest => simp_all

theorem dropWhile_run (hrun : ∀ a ∈ run, p a = true) (hrest : rest.head?.any p = false) :
    (run ++ rest).dropWhile p = rest := by
  rw [List.dropWhile_append_of_pos hrun]
  cases rest with
  | nil => simp
  | cons a rest => simp_all

end Runs

section Names

open Naming

/-- The identifier after a mark at the front of a text, and what follows it. -/
def nameAfter? (mark : String) (text : List Char) : Option (List Char × List Char) :=
  (text.dropPrefix? mark.toList).map fun rest =>
    (rest.takeWhile isIdentifierChar, rest.dropWhile isIdentifierChar)

theorem nameAfter?_append {mark : String} {name rest : List Char}
    (h : ∀ c ∈ name, isIdentifierChar c = true)
    (hrest : rest.head?.any isIdentifierChar = false) :
    nameAfter? mark (mark.toList ++ (name ++ rest)) = some (name, rest) := by
  rw [nameAfter?, List.dropPrefix?_append_of_beq _ (beq_self_eq_true _), Option.map_some,
    takeWhile_run h hrest, dropWhile_run h hrest]

end Names

/-- The character that an escape stands for, by the character after the backslash. -/
def unescape? : Char → Option Char
  | '\\' => some '\\'
  | '\'' => some '\''
  | '$' => some '$'
  | 'n' => some '\n'
  | 'r' => some '\r'
  | _ => none

/-- The rest of a literal after its opening quote: what it stands for and what follows it. -/
def readBody : List Char → Option (List Char × List Char)
  | [] => none
  | '\'' :: r => some ([], r)
  | '$' :: _ | '\n' :: _ | '\r' :: _ => none
  | '\\' :: [] => none
  | '\\' :: c :: r => do
    let c ← unescape? c
    let (s, r) ← readBody r
    return (c :: s, r)
  | c :: r => do
    let (s, r) ← readBody r
    return (c :: s, r)

def readLiteral : List Char → Option (List Char × List Char)
  | '\'' :: r => readBody r
  | _ => none

/-- The text that a literal stands for, if it is one literal and nothing else. -/
def literalValue? (text : String) : Option String :=
  match readLiteral text.toList with
  | some (s, []) => some (String.ofList s)
  | _ => none

theorem readBody_escaped (c : Char) (r : List Char) :
    readBody (escaped c ++ r) = (readBody r).map fun p => (c :: p.1, p.2) := by
  unfold escaped
  split
  case h_6 h₁ h₂ h₃ h₄ h₅ =>
    rw [List.singleton_append, readBody]
    · cases readBody r <;> rfl
    all_goals grind
  all_goals
    simp only [List.cons_append, List.nil_append, readBody, unescape?]
    cases readBody r <;> rfl

theorem readBody_flatMap_escaped (s r : List Char) :
    readBody (s.flatMap escaped ++ '\'' :: r) = some (s, r) := by
  induction s with
  | nil => simp [readBody]
  | cons c s ih => rw [List.flatMap_cons, List.append_assoc, readBody_escaped, ih, Option.map_some]

/-- Reading a written literal ends where the literal ends and gives back what was written. -/
theorem readLiteral_stringLiteral (s r : List Char) :
    readLiteral (stringLiteral s ++ r) = some (s, r) := by
  have h := readBody_flatMap_escaped s r
  simpa [stringLiteral, readLiteral] using h

theorem literalValue?_quote (s : String) : literalValue? (quote s) = some s := by
  have h := readLiteral_stringLiteral s.toList []
  rw [List.append_nil] at h
  simp [literalValue?, quote, h]

end DartModels.Dart
