import DartModels.Naming.Identifier

/-! # Characters of identifiers

Whatever a schema name holds, the identifiers made of it hold letters, digits and underscores only.
-/

namespace DartModels.Naming

theorem isIdentifierChar_of_mem_bareIdentifier {fallback name : List Char}
    (hfallback : ∀ c ∈ fallback, isIdentifierChar c = true) {c : Char}
    (h : c ∈ bareIdentifier fallback name) : isIdentifierChar c = true := by
  unfold bareIdentifier at h
  split at h
  · exact hfallback c h
  · next first rest hfilter =>
    have hkept : ∀ c ∈ first :: rest, isIdentifierChar c = true :=
      fun c hc => (List.mem_filter.1 (hfilter ▸ hc)).2
    split at h
    · exact (List.mem_append.1 h).elim (hfallback c) (hkept c)
    · exact hkept c h

theorem isIdentifierChar_of_mem_identifier {fallback name : String} {reserved : List String}
    (hfallback : fallback.toList.all isIdentifierChar = true) {c : Char}
    (h : c ∈ (identifier fallback reserved name).toList) : isIdentifierChar c = true := by
  unfold identifier at h
  dsimp only at h
  split at h
  · rw [String.toList_push, String.toList_ofList, List.mem_append, List.mem_singleton] at h
    rcases h with h | rfl
    · exact isIdentifierChar_of_mem_bareIdentifier (List.all_eq_true.1 hfallback) h
    · rfl
  · rw [String.toList_ofList] at h
    exact isIdentifierChar_of_mem_bareIdentifier (List.all_eq_true.1 hfallback) h

theorem isIdentifierChar_of_mem_typeName {name : String} {c : Char}
    (h : c ∈ (typeName name).toList) : isIdentifierChar c = true :=
  isIdentifierChar_of_mem_identifier (by decide) h

theorem isIdentifierChar_of_mem_fieldName {name : String} {c : Char}
    (h : c ∈ (fieldName name).toList) : isIdentifierChar c = true :=
  isIdentifierChar_of_mem_identifier (by decide) h

theorem isIdentifierChar_of_mem_memberName {name : String} {c : Char}
    (h : c ∈ (memberName name).toList) : isIdentifierChar c = true :=
  isIdentifierChar_of_mem_identifier (by decide) h

end DartModels.Naming
