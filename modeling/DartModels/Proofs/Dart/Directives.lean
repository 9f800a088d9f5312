import DartModels.Proofs.Dart.Literals
import DartModels.Proofs.Dart.Nesting

/-! # Import directives

A path stands in an import line as it is, between single quotes. The line imports that path if and
only if no character of the path needs an escape.
-/

namespace DartModels.Dart

/-- A text that a literal holds without escapes. -/
def IsUnescaped (s : String) : Prop :=
  ∀ c ∈ s.toList, escaped c = [c]

instance (s : String) : Decidable (IsUnescaped s) :=
  decidable_of_iff ((s.toList.all fun c => escaped c = [c]) = true) (by simp [IsUnescaped])

theorem escaped_eq_singleton_iff {c : Char} :
    escaped c = [c] ↔ c ∉ ['\\', '\'', '$', '\n', '\r'] := by
  unfold escaped
  split <;> simp_all

theorem quote_of_isUnescaped {s : String} (h : IsUnescaped s) : quote s = "'" ++ s ++ "'" := by
  have hbody : s.toList.flatMap escaped = s.toList := by
    rw [List.flatMap_congr (g := fun c => [c]) h]
    simp
  apply String.toList_injective
  simp [quote, stringLiteral, hbody]

theorem importLine_eq (path : String) :
    importLine path = "import " ++ ("'" ++ path ++ "'") ++ ";" := by
  have hopen : "import '" = "import " ++ "'" := rfl
  have hclose : "';" = "'" ++ ";" := rfl
  rw [importLine, hopen, hclose]
  simp only [toString, String.append_assoc]

theorem turns_importLine {path : String} (h : IsUnescaped path) (awaited : List Char) :
    Turns (importLine path) awaited awaited := by
  rw [importLine_eq, ← quote_of_isUnescaped h]
  exact ((IsFlat.turns (by decide) awaited).append (turns_quote path awaited)).append
    (IsFlat.turns (by decide) awaited)

/-- A line that imports a path: the word, one literal that stands for the path, and a semicolon. -/
def ImportsPath (line path : String) : Prop :=
  ∃ lit, line = "import " ++ lit ++ ";" ∧ literalValue? lit = some path

/-- What a literal stands for is shorter than the literal. -/
theorem length_of_readBody {s value rest : List Char} (h : readBody s = some (value, rest)) :
    value.length + rest.length < s.length := by
  fun_induction readBody s generalizing value rest with
  | case1 | case3 | case4 | case5 | case6 => cases h
  | case2 r =>
    cases h
    simp
  | case7 c r ih =>
    obtain ⟨d, -, hd⟩ := Option.bind_eq_some_iff.1 h
    obtain ⟨⟨others, rest'⟩, hr, hvalue⟩ := Option.bind_eq_some_iff.1 hd
    cases hvalue
    have := ih hr
    simp only [List.length_cons]
    omega
  | case8 c r _ _ _ _ _ _ ih =>
    obtain ⟨⟨others, rest'⟩, hr, hvalue⟩ := Option.bind_eq_some_iff.1 h
    cases hvalue
    have := ih hr
    simp only [List.length_cons]
    omega

/-- An escape takes two characters for one, so no text that starts with one stands for itself. -/
theorem readBody_backslash_ne (rest : List Char) :
    readBody ('\\' :: (rest ++ ['\''])) ≠ some ('\\' :: rest, []) := by
  intro h
  cases rest with
  | nil => simp [readBody] at h
  | cons c tail =>
    rw [List.cons_append, readBody] at h
    obtain ⟨d, -, hd⟩ := Option.bind_eq_some_iff.1 h
    obtain ⟨⟨value, after⟩, htail, hvalue⟩ := Option.bind_eq_some_iff.1 hd
    have hshort := length_of_readBody htail
    obtain ⟨⟨-, rfl⟩, rfl⟩ : ('\\' = d ∧ c :: tail = value) ∧ [] = after := by
      simpa [eq_comm] using hvalue
    simp at hshort

/-- A text that stands for itself between quotes has no character that needs an escape. -/
theorem escaped_of_readBody {s : List Char} (h : readBody (s ++ ['\'']) = some (s, [])) :
    ∀ c ∈ s, escaped c = [c] := by
  induction s with
  | nil => simp
  | cons c rest ih =>
    by_cases hc : escaped c = [c]
    · rw [List.cons_append, ← List.singleton_append, ← hc, readBody_escaped] at h
      obtain ⟨⟨value, after⟩, hrest, hvalue⟩ := Option.map_eq_some_iff.1 h
      cases hvalue
      exact List.forall_mem_cons.2 ⟨hc, ih hrest⟩
    · rw [escaped_eq_singleton_iff, not_not] at hc
      simp only [List.mem_cons, List.not_mem_nil, or_false] at hc
      rcases hc with rfl | rfl | rfl | rfl | rfl
      · exact absurd h (readBody_backslash_ne rest)
      all_goals simp [readBody] at h

theorem importsPath_importLine_iff {path : String} :
    ImportsPath (importLine path) path ↔ IsUnescaped path := by
  constructor
  · rintro ⟨lit, hline, hvalue⟩
    have hlit : lit = "'" ++ path ++ "'" := by
      have hlists := congrArg String.toList hline
      simp only [importLine_eq, String.toList_append, List.append_left_inj,
        List.append_right_inj] at hlists
      apply String.toList_injective
      simpa only [String.toList_append] using hlists.symm
    have hread : readLiteral lit.toList = readBody (path.toList ++ ['\'']) := by
      rw [hlit]
      simp [readLiteral]
    rw [literalValue?, hread] at hvalue
    split at hvalue
    · next value hbody =>
      have hpath : value = path.toList := by
        rw [← Option.some.inj hvalue, String.toList_ofList]
      rw [hpath] at hbody
      exact escaped_of_readBody hbody
    · cases hvalue
  · intro h
    refine ⟨quote path, ?_, literalValue?_quote path⟩
    rw [importLine_eq, quote_of_isUnescaped h]

end DartModels.Dart
