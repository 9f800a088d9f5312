import DartModels.Proofs.Dart.Literals
import DartModels.Proofs.Dart.Numerals

/-! # Statements

A method of an enumeration tests one operand against others, and the first test that holds decides.
Every scalar that is written as a literal is read as the same operand.
-/

namespace DartModels.Dart

open Binary64 Naming

universe u

namespace Scalar

def toJson : Scalar → Json
  | .null => .null
  | .bool b => .bool b
  | .int n => .int n
  | .float x => .float x
  | .str s => .str s

/-- Neither an infinity nor what is not a number. -/
def IsFinite : Scalar → Prop
  | .float (.finite _ mantissa exponent) => IsCanonical mantissa exponent
  | .float _ => False
  | _ => True

theorem IsFinite.ne_nan {s : Scalar} (h : s.IsFinite) : s ≠ .float .nan := by
  rintro rfl
  exact h

/-- A numeral within the range of the numbers stands for a finite one. -/
theorem isFinite_ofDecimal {negative sign : Bool} {digits mantissa : Nat} {power exponent : Int}
    (h : ofDecimal negative digits power = .finite sign mantissa exponent) :
    (Scalar.float (ofDecimal negative digits power)).IsFinite := by
  rw [h]
  exact isCanonical_of_ofDecimal h

end Scalar

/-- What a statement speaks of: a literal, a constant of an enumeration or a variable. -/
inductive Operand
  | scalar (value : Scalar)
  | constant (member : Constant)
  | variable (name : String)
  deriving DecidableEq, Repr

inductive Statement
  | return (result : Operand)
  | test (left right result : Operand)
  deriving DecidableEq, Repr

/-- A word that is no variable is a literal. -/
def Operand.ofWord : String → Operand
  | "null" => .scalar .null
  | "true" => .scalar (.bool true)
  | "false" => .scalar (.bool false)
  | word => .variable word

/-- The operand at the front of a text, and what follows it. -/
def readOperand (s : List Char) : Option (Operand × List Char) :=
  match readLiteral s with
  | some (text, rest) => some (.scalar (.str (String.ofList text)), rest)
  | none =>
    match readNumber s with
    | some (number, rest) => some (.scalar number, rest)
    | none =>
      let word := String.ofList (s.takeWhile isIdentifierChar)
      match s.dropWhile isIdentifierChar with
      | '.' :: rest => some (.constant ⟨word, String.ofList (rest.takeWhile isIdentifierChar)⟩,
          rest.dropWhile isIdentifierChar)
      | rest => if word = "" then none else some (.ofWord word, rest)

def readStatement (line : String) : Option Statement :=
  match line.toList.dropPrefix? "    return ".toList with
  | some s => do
    let (result, s) ← readOperand s
    if s = ";".toList then some (.return result) else none
  | none => do
    let s ← line.toList.dropPrefix? "    if (".toList
    let (left, s) ← readOperand s
    let s ← s.dropPrefix? " == ".toList
    let (right, s) ← readOperand s
    let s ← s.dropPrefix? ") return ".toList
    let (result, s) ← readOperand s
    if s = ";".toList then some (.test left right result) else none

section Reading

variable {rest : List Char}

/-- A text that an operand before it cannot run into. -/
def EndsOperand (rest : List Char) : Prop :=
  rest.head?.any (fun c => isIdentifierChar c || c = '.') = false

theorem EndsOperand.identifier (h : EndsOperand rest) :
    rest.head?.any isIdentifierChar = false := by
  cases rest <;> simp_all [EndsOperand]

theorem EndsOperand.numeral (h : EndsOperand rest) : EndsNumeral rest := by
  cases rest with
  | nil => rfl
  | cons c rest =>
    simp only [EndsOperand, EndsNumeral, List.head?_cons, Option.any_some, Bool.or_eq_false_iff,
      decide_eq_false_iff_not] at h ⊢
    obtain ⟨hc, hpoint⟩ := h
    refine ⟨⟨⟨?_, hpoint⟩, ?_⟩, ?_⟩
    · by_contra hdigit
      simp [isIdentifierChar, Char.isAlphanum, hdigit] at hc
    · rintro rfl
      exact absurd hc (by decide)
    · rintro rfl
      exact absurd hc (by decide)

/-- Identifier characters, the first of which is no digit. -/
structure IsIdentifier (word : String) : Prop where
  chars : ∀ c ∈ word.toList, isIdentifierChar c = true
  first : ∃ c rest, word.toList = c :: rest ∧ c.isDigit = false

/-- A text that is read as an operand, whatever stands behind it. -/
def Spells (text : String) (o : Operand) : Prop :=
  ∀ rest, EndsOperand rest → readOperand (text.toList ++ rest) = some (o, rest)

theorem spells_quote (s : String) : Spells (quote s) (.scalar (.str s)) := by
  intro rest _
  rw [quote, String.toList_ofList, readOperand, readLiteral_stringLiteral]
  dsimp only
  rw [String.ofList_toList]

theorem spells_number {text : String} {number : Scalar}
    (h : ∀ rest, EndsNumeral rest → readNumber (text.toList ++ rest) = some (number, rest)) :
    Spells text (.scalar number) := by
  intro rest hrest
  have hnumber := h rest hrest.numeral
  have hliteral : readLiteral (text.toList ++ rest) = none := by
    unfold readLiteral
    split
    · next s heq =>
      rw [heq] at hnumber
      cases hnumber
    · rfl
  rw [readOperand, hliteral]
  dsimp only
  rw [hnumber]

theorem readNumeral_eq_none {c : Char} (h : c.isDigit = false) :
    readNumeral (c :: rest) = none := by
  have hzero : c ≠ '0' := by
    rintro rfl
    cases h
  rw [readNumeral, Json.integerPart, if_neg hzero, if_neg (by simp [h])]

/-- A word is neither a string nor a number. -/
theorem IsIdentifier.not_scalar {word : String} (h : IsIdentifier word) (rest : List Char) :
    readLiteral (word.toList ++ rest) = none ∧ readNumber (word.toList ++ rest) = none := by
  obtain ⟨c, tail, htext, hdigit⟩ := h.first
  have hc := h.chars c (htext ▸ List.mem_cons_self)
  rw [htext, List.cons_append]
  constructor
  · unfold readLiteral
    split
    · next heq =>
      obtain ⟨rfl, -⟩ := List.cons_eq_cons.1 heq
      exact absurd hc (by decide)
    · rfl
  · unfold readNumber
    split
    · next heq =>
      obtain ⟨rfl, -⟩ := List.cons_eq_cons.1 heq
      exact absurd hc (by decide)
    · rw [readNumeral_eq_none hdigit, Option.map_none]

theorem spells_constant {type name : String} (htype : IsIdentifier type)
    (hname : ∀ c ∈ name.toList, isIdentifierChar c = true) :
    Spells (type ++ "." ++ name) (.constant ⟨type, name⟩) := by
  intro rest hrest
  have htext : (type ++ "." ++ name).toList ++ rest =
      type.toList ++ '.' :: (name.toList ++ rest) := by simp
  obtain ⟨hliteral, hnumber⟩ := htype.not_scalar ('.' :: (name.toList ++ rest))
  rw [htext, readOperand, hliteral]
  dsimp only
  rw [hnumber, takeWhile_run htype.chars rfl, dropWhile_run htype.chars rfl]
  change some (Operand.constant _, _) = _
  rw [takeWhile_run hname hrest.identifier, dropWhile_run hname hrest.identifier,
    String.ofList_toList, String.ofList_toList]

theorem spells_word {word : String} (h : IsIdentifier word) : Spells word (.ofWord word) := by
  intro rest hrest
  obtain ⟨hliteral, hnumber⟩ := h.not_scalar rest
  have hword : word ≠ "" := by
    rintro rfl
    obtain ⟨c, tail, htext, -⟩ := h.first
    cases htext
  rw [readOperand, hliteral]
  dsimp only
  rw [hnumber, takeWhile_run h.chars hrest.identifier, dropWhile_run h.chars hrest.identifier,
    String.ofList_toList]
  dsimp only
  split
  · -- with a point behind it the word would be the type of a constant
    cases hrest
  · rw [if_neg hword]

/-- Every scalar but an infinity and what is not a number is read as it was written. -/
theorem spells_literal {s : Scalar} (h : s.IsFinite) : Spells (literal s.toJson) (.scalar s) := by
  cases s with
  | null => exact spells_word ⟨List.all_eq_true.1 rfl, _, _, rfl, rfl⟩
  | bool b => cases b <;> exact spells_word ⟨List.all_eq_true.1 rfl, _, _, rfl, rfl⟩
  | int n => exact spells_number fun rest => readNumber_int n
  | float x =>
    cases x with
    | nan => exact h.elim
    | infinite negative => exact h.elim
    | finite negative mantissa exponent => exact spells_number fun rest => readNumber_float h
  | str s => exact spells_quote s

theorem readStatement_return {text : String} {o : Operand} (h : Spells text o) :
    readStatement ("    return " ++ text ++ ";") = some (.return o) := by
  have htext : ("    return " ++ text ++ ";").toList =
      "    return ".toList ++ (text.toList ++ ";".toList) := by simp
  have hend : EndsOperand ";".toList := rfl
  rw [readStatement, htext, List.dropPrefix?_append_of_beq _ (beq_self_eq_true _)]
  dsimp only
  rw [h _ hend]
  rfl

theorem readStatement_test {left right result : String} {l r x : Operand} (hl : Spells left l)
    (hr : Spells right r) (hx : Spells result x) :
    readStatement ("    if (" ++ left ++ " == " ++ right ++ ") return " ++ result ++ ";") =
      some (.test l r x) := by
  have htext : ("    if (" ++ left ++ " == " ++ right ++ ") return " ++ result ++ ";").toList =
      "    if (".toList ++ (left.toList ++ (" == ".toList ++ (right.toList ++
        (") return ".toList ++ (result.toList ++ ";".toList))))) := by simp
  have hreturn : ("    if (".toList ++ (left.toList ++ (" == ".toList ++ (right.toList ++
      (") return ".toList ++ (result.toList ++ ";".toList)))))).dropPrefix?
        "    return ".toList = none := by rfl
  have hequals (s : List Char) : EndsOperand (" == ".toList ++ s) := rfl
  have hthen (s : List Char) : EndsOperand (") return ".toList ++ s) := rfl
  have hend : EndsOperand ";".toList := rfl
  rw [readStatement, htext, hreturn]
  dsimp only [Option.bind_eq_bind]
  rw [List.dropPrefix?_append_of_beq _ (beq_self_eq_true _), Option.bind_some, hl _ (hequals _),
    Option.bind_some]
  dsimp only
  rw [List.dropPrefix?_append_of_beq _ (beq_self_eq_true _), Option.bind_some, hr _ (hthen _),
    Option.bind_some]
  dsimp only
  rw [List.dropPrefix?_append_of_beq _ (beq_self_eq_true _), Option.bind_some, hx _ hend,
    Option.bind_some]
  rfl

end Reading

section Running

variable {κ : Type u} (L : Library κ) (scope : String → Option (Object κ))

def Operand.eval : Operand → Option (Object κ)
  | .scalar s => some (.scalar s)
  | .constant c => some (.constant c)
  | .variable name => scope name

/-- The result of a method, if it comes to one. -/
def run : List Statement → Option (Object κ)
  | [] => none
  | .return result :: _ => result.eval scope
  | .test left right result :: rest =>
    match left.eval scope, right.eval scope with
    | some x, some y => if L.bareEquals x y then result.eval scope else run rest
    | _, _ => none

/-- A test whose sides differ. -/
def Fails : Statement → Prop
  | .return _ => False
  | .test left right _ => ∃ x y, left.eval scope = some x ∧ right.eval scope = some y ∧
      L.bareEquals x y = false

variable {L} {scope}

theorem run_append_of_fails {before : List Statement} (h : ∀ s ∈ before, Fails L scope s)
    (rest : List Statement) : run L scope (before ++ rest) = run L scope rest := by
  induction before with
  | nil => rfl
  | cons s before ih =>
    obtain ⟨hs, hbefore⟩ := List.forall_mem_cons.1 h
    cases s with
    | «return» => exact hs.elim
    | test left right result =>
      obtain ⟨x, y, hx, hy, hne⟩ := hs
      rw [List.cons_append, run, hx, hy]
      dsimp only
      rw [hne, if_neg Bool.false_ne_true, ih hbefore]

theorem run_test {left right result : Operand} {x y : Object κ} (hx : left.eval scope = some x)
    (hy : right.eval scope = some y) (h : L.bareEquals x y = true) (rest : List Statement) :
    run L scope (.test left right result :: rest) = result.eval scope := by
  rw [run, hx, hy]
  dsimp only
  rw [if_pos h]

end Running

end DartModels.Dart
