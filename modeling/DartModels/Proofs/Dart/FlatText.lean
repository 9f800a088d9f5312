import DartModels.Proofs.Binary64.Characters
import DartModels.Proofs.Dart.Nesting
import DartModels.Proofs.Model.Analysis
import DartModels.Proofs.Naming.Identifiers

/-! # Flat text

Names of generated types and fields, types, and scalars that are no strings are written without
brackets, quotes and slashes.
-/

namespace DartModels

/-- A value without items and members. -/
def Json.isScalar : Json → Bool
  | .arr _ | .obj _ => false
  | .null | .bool _ | .int _ | .float _ | .str _ => true

namespace Dart

open Model Naming Text

theorem isFlat_of_isIdentifierChar {c : Char} (h : isIdentifierChar c = true) :
    isFlat c = true := by
  have hplain : isPlain c = true := by
    simp only [isPlain, Bool.and_eq_true, bne_iff_ne]
    refine ⟨⟨?_, ?_⟩, ?_⟩ <;> rintro rfl <;> exact absurd h (by decide)
  have hopening : closing? c = none := by
    unfold closing?
    split <;> first | rfl | exact absurd h (by decide)
  have hclosing : isClosing c = false := by
    simp only [isClosing, Bool.or_eq_false_iff, decide_eq_false_iff_not]
    refine ⟨⟨?_, ?_⟩, ?_⟩ <;> rintro rfl <;> exact absurd h (by decide)
  exact isFlat_iff.2 ⟨hplain, hopening, hclosing⟩

section Names

theorem isFlat_typeName (name : String) : IsFlat (typeName name) :=
  fun _ hc => isFlat_of_isIdentifierChar (isIdentifierChar_of_mem_typeName hc)

theorem isFlat_fieldName (name : String) : IsFlat (fieldName name) :=
  fun _ hc => isFlat_of_isIdentifierChar (isIdentifierChar_of_mem_fieldName hc)

theorem isFlat_memberName (name : String) : IsFlat (memberName name) :=
  fun _ hc => isFlat_of_isIdentifierChar (isIdentifierChar_of_mem_memberName hc)

/-- The names of the generated types in a type are flat. -/
def HasFlatNames : TypeRef → Prop
  | .model name _ => IsFlat name
  | .enumeration declaration _ => IsFlat declaration.name
  | .list item => HasFlatNames item
  | .dynamic | .primitive _ => True

theorem isFlat_typeText {t : TypeRef} (h : HasFlatNames t) : IsFlat (typeText t) := by
  induction t with
  | dynamic => decide
  | primitive p => cases p <;> decide
  | model name path => exact h
  | enumeration declaration path => exact h
  | list item ih => exact ((by decide : IsFlat "List<").append (ih h)).append (by decide)

theorem hasFlatNames_enumeration (property : String) (values : List Json) (path : String) :
    HasFlatNames (.enumeration (.ofValues property values) path) := by
  rw [HasFlatNames, Enumeration.name_ofValues]
  exact isFlat_typeName property

theorem hasFlatNames_resolve (d : Schema.Document) (o : Options) (property : String)
    (node : Schema.Node) : HasFlatNames (resolve d o property node) := by
  fun_induction resolve d o property node with
  | case1 | case2 | case6 => trivial
  | case3 | case4 => exact hasFlatNames_enumeration property _ (enumerationImport o property)
  | case5 pointer =>
    rw [resolveReference]
    cases d.resolve? pointer with
    | none => trivial
    | some definition => exact isFlat_typeName definition.name
  | case7 items _ ih => exact ih

end Names

section Scalars

theorem isFlat_of_isNumeralChar {c : Char} (h : Binary64.isNumeralChar c = true) :
    isFlat c = true := by
  rcases Bool.or_eq_true_iff.1 h with hdigit | hmark
  · exact isFlat_of_isIdentifierChar (by simp [isIdentifierChar, Char.isAlphanum, hdigit])
  · have hflat : ['.', 'e', '+', '-'].all isFlat = true := by decide
    exact List.all_eq_true.1 hflat c (List.contains_iff_mem.1 hmark)

theorem isFlat_int (n : Int) : IsFlat (toString n) :=
  fun _ hc => isFlat_of_isNumeralChar (Binary64.isNumeralChar_of_mem_int hc)

theorem isFlat_binary64 (x : Binary64) : IsFlat (x.text Json.jsonNumbers) := by
  intro c hc
  rcases Binary64.mem_text_cases hc with hnumeral | hnan | hinfinity
  · exact isFlat_of_isNumeralChar hnumeral
  · exact (by decide : IsFlat Json.jsonNumbers.nan) c hnan
  · exact (by decide : IsFlat Json.jsonNumbers.infinity) c hinfinity

/-- The literal of a scalar leaves all brackets as they are. -/
theorem turns_literal {v : Json} (h : v.isScalar = true) (awaited : List Char) :
    Turns (literal v) awaited awaited := by
  cases v with
  | null => exact IsFlat.turns (by decide) awaited
  | bool b => cases b <;> exact IsFlat.turns (by decide) awaited
  | int n => exact (isFlat_int n).turns awaited
  | float x => exact (isFlat_binary64 x).turns awaited
  | str s => exact turns_quote s awaited
  | arr | obj => cases h

end Scalars

end Dart

end DartModels
