import DartModels.Proofs.Naming.Identifiers

/-! # Legal identifiers

Case conversion drops every separator, and no other character has an underscore in its upper or
lower case. The only underscore of an identifier is therefore the one that keeps it apart from a
reserved name.
-/

namespace DartModels.Naming

open Text

variable {c : Char} {s : List Char}

section Case

theorem eq_of_ofNat_eq {n : Nat} (h : Char.ofNat n = c) (hc : c ≠ '\x00') : n = c.toNat := by
  subst h
  unfold Char.ofNat at hc ⊢
  by_cases hn : n.isValidChar
  · rw [dif_pos hn]
    rfl
  · exact absurd (dif_neg hn) hc

/-- A table leads to a character from elsewhere only through one of its entries. -/
theorem notMem_expandIn {expansions : List (Nat × List Nat)} {runs : List CaseRun} {mark : Char}
    (hmark : mark ≠ '\x00') (he : ∀ e ∈ expansions, mark.toNat ∉ e.2)
    (hr : ∀ r ∈ runs, r.contains (mark.toNat - r.shift).toNat = false) (hc : c ≠ mark) :
    mark ∉ expandIn expansions runs c := by
  unfold expandIn
  split
  · next e hfind =>
    intro h
    obtain ⟨n, hn, heq⟩ := List.mem_map.1 h
    exact he e (List.mem_of_find?_eq_some hfind) (eq_of_ofNat_eq heq hmark ▸ hn)
  · rw [List.mem_singleton, shiftIn]
    split
    · next r hfind =>
      intro h
      have hsum := eq_of_ofNat_eq h.symm hmark
      have hnat : c.toNat = (mark.toNat - r.shift).toNat := by
        have hpos : 0 < mark.toNat := Nat.pos_of_ne_zero fun h0 => hmark (Char.toNat_inj.1 h0)
        omega
      have hfound := List.find?_some hfind
      rw [hnat, hr r (List.mem_of_find?_eq_some hfind)] at hfound
      cases hfound
    · exact hc.symm

theorem tables_without_underscore :
    ((∀ e ∈ upperExpansions, '_'.toNat ∉ e.2) ∧
      ∀ r ∈ upperRuns, r.contains ('_'.toNat - r.shift).toNat = false) ∧
    (∀ e ∈ lowerExpansions, '_'.toNat ∉ e.2) ∧
      ∀ r ∈ lowerRuns, r.contains ('_'.toNat - r.shift).toNat = false := by
  decide +kernel

theorem underscore_notMem_upper (h : c ≠ '_') : '_' ∉ upper c :=
  notMem_expandIn (by decide) tables_without_underscore.1.1 tables_without_underscore.1.2 h

theorem underscore_notMem_lower (h : c ≠ '_') : '_' ∉ lower c :=
  notMem_expandIn (by decide) tables_without_underscore.2.1 tables_without_underscore.2.2 h

theorem underscore_notMem_upperFirst (h : '_' ∉ s) : '_' ∉ upperFirst s := by
  cases s with
  | nil => exact h
  | cons c rest =>
    rw [List.mem_cons, not_or] at h
    rw [upperFirst, List.mem_append, not_or]
    exact ⟨underscore_notMem_upper (Ne.symm h.1), h.2⟩

theorem underscore_notMem_lowerFirst (h : '_' ∉ s) : '_' ∉ lowerFirst s := by
  cases s with
  | nil => exact h
  | cons c rest =>
    rw [List.mem_cons, not_or] at h
    rw [lowerFirst, List.mem_append, not_or]
    exact ⟨underscore_notMem_lower (Ne.symm h.1), h.2⟩

theorem underscore_notMem_lowerAll (h : '_' ∉ s) : '_' ∉ lowerAll s := by
  suffices ∀ cased, '_' ∉ lowerAfter cased s from this false
  induction s with
  | nil => exact fun _ => h
  | cons c rest ih =>
    intro cased
    rw [List.mem_cons, not_or] at h
    rw [lowerAfter, List.mem_append, not_or]
    refine ⟨?_, ih h.2 _⟩
    split
    · decide
    · exact underscore_notMem_lower (Ne.symm h.1)

theorem underscore_notMem_capitalized (h : '_' ∉ s) : '_' ∉ capitalized s := by
  cases s with
  | nil => exact h
  | cons c rest =>
    rw [List.mem_cons, not_or] at h
    rw [capitalized, List.mem_append, not_or]
    exact ⟨underscore_notMem_upper (Ne.symm h.1), underscore_notMem_lowerAll h.2⟩

end Case

section Words

theorem ne_underscore_of_word (h : ¬ isSeparator c = true) : c ≠ '_' := by
  rintro rfl
  exact h rfl

theorem underscore_notMem_camelFrom (fresh : Bool) (s : List Char) : '_' ∉ camelFrom fresh s := by
  induction s generalizing fresh with
  | nil => exact List.not_mem_nil
  | cons c rest ih =>
    rw [camelFrom]
    split
    · exact ih true
    · next hword =>
      have hc := ne_underscore_of_word hword
      rw [List.mem_append, not_or]
      refine ⟨?_, ih false⟩
      cases fresh
      · simpa using hc.symm
      · exact underscore_notMem_upper hc

theorem underscore_notMem_typeCase (s : List Char) : '_' ∉ typeCase s :=
  underscore_notMem_upperFirst (underscore_notMem_camelFrom false s)

theorem underscore_notMem_fieldCase (s : List Char) : '_' ∉ fieldCase s :=
  underscore_notMem_lowerFirst (underscore_notMem_camelFrom false s)

theorem eq_false_of_mem_segments {p : Char → Bool} {piece : List Char}
    (hpiece : piece ∈ segments p s) (hc : c ∈ piece) : p c = false := by
  induction s generalizing piece with
  | nil =>
    rw [List.mem_singleton.1 hpiece] at hc
    cases hc
  | cons d rest ih =>
    rw [segments] at hpiece
    split at hpiece
    · rcases List.mem_cons.1 hpiece with rfl | hpiece
      · cases hc
      · exact ih hpiece hc
    · next hd =>
      split at hpiece
      · next hnil => exact absurd hnil (segments_ne_nil p rest)
      · next first others hrest =>
        rcases List.mem_cons.1 hpiece with rfl | hpiece
        · rcases List.mem_cons.1 hc with rfl | hc
          · exact eq_false_of_ne_true hd
          · exact ih (hrest ▸ List.mem_cons_self) hc
        · exact ih (hrest ▸ List.mem_cons_of_mem _ hpiece) hc

theorem underscore_notMem_of_isLowerCamel (h : isLowerCamel s = true) : '_' ∉ s := by
  cases s with
  | nil => exact List.not_mem_nil
  | cons c rest =>
    rw [isLowerCamel, Bool.and_eq_true, List.all_eq_true] at h
    intro hmem
    rcases List.mem_cons.1 hmem with rfl | hmem
    · exact absurd h.1 (by decide)
    · exact absurd (h.2 _ hmem) (by decide)

theorem underscore_notMem_memberCase (s : List Char) : '_' ∉ memberCase s := by
  have hpieces : ∀ piece ∈ segments (fun c => isSeparator c || c = '.') s, '_' ∉ piece := by
    intro piece hpiece hmem
    exact absurd (eq_false_of_mem_segments hpiece hmem) (by decide)
  unfold memberCase
  split
  · next hcamel => exact underscore_notMem_of_isLowerCamel hcamel
  · split
    · exact List.not_mem_nil
    · next head words hsegments =>
      rw [hsegments, List.forall_mem_cons] at hpieces
      rw [List.mem_append, not_or, List.mem_flatMap]
      refine ⟨underscore_notMem_lowerAll hpieces.1, ?_⟩
      rintro ⟨word, hword, hmem⟩
      exact underscore_notMem_capitalized (hpieces.2 word hword) hmem

end Words

/-- A letter followed by letters and digits. -/
def IsWord (s : List Char) : Prop :=
  ∃ first rest, s = first :: rest ∧ first.isAlpha = true ∧ ∀ c ∈ rest, c.isAlphanum = true

/-- A word with at most one underscore at its end that is neither a keyword nor reserved. -/
structure IsLegal (reserved : List String) (name : String) : Prop where
  shape : ∃ word tail, name.toList = word ++ tail ∧ IsWord word ∧ tail ∈ [[], ['_']]
  not_keyword : name ∉ keywords
  not_reserved : name ∉ reserved

theorem isWord_bareIdentifier {fallback name : List Char} (hfallback : IsWord fallback)
    (hname : '_' ∉ name) : IsWord (bareIdentifier fallback name) := by
  unfold bareIdentifier
  split
  · exact hfallback
  · next first rest hfilter =>
    have hkept : ∀ c ∈ first :: rest, c.isAlphanum = true := by
      intro c hc
      obtain ⟨hmem, hchar⟩ := List.mem_filter.1 (hfilter ▸ hc)
      have hmark : c ≠ '_' := by
        rintro rfl
        exact hname hmem
      simpa [isIdentifierChar, hmark] using hchar
    split
    · obtain ⟨letter, word, rfl, hletter, hword⟩ := hfallback
      refine ⟨letter, word ++ first :: rest, rfl, hletter, fun c hc => ?_⟩
      exact (List.mem_append.1 hc).elim (hword c) (hkept c)
    · next hdigit =>
      obtain ⟨hfirst, hrest⟩ := List.forall_mem_cons.1 hkept
      exact ⟨first, rest, rfl, by simpa [Char.isAlphanum, hdigit] using hfirst, hrest⟩

/-- No reserved name has an underscore, so a name with one is no reserved name. -/
theorem isLegal_identifier {fallback name : String} {reserved : List String}
    (hfallback : IsWord fallback.toList) (hname : '_' ∉ name.toList)
    (hreserved : ∀ word ∈ keywords ++ reserved, '_' ∉ word.toList) :
    IsLegal reserved (identifier fallback reserved name) := by
  have hword := isWord_bareIdentifier hfallback hname
  unfold identifier
  dsimp only
  split
  · have hmark : ∀ s : String, s.push '_' ∉ keywords ++ reserved := by
      intro s hmem
      exact hreserved _ hmem (by simp)
    have hnotMem := hmark (String.ofList (bareIdentifier fallback.toList name.toList))
    rw [List.mem_append, not_or] at hnotMem
    exact ⟨⟨_, ['_'], by simp, hword, by simp⟩, hnotMem.1, hnotMem.2⟩
  · next hfree =>
    rw [Bool.or_eq_true, not_or, List.contains_iff_mem, List.contains_iff_mem] at hfree
    exact ⟨⟨_, [], by simp, hword, by simp⟩, hfree.1, hfree.2⟩

theorem isLegal_typeName (name : String) : IsLegal [] (typeName name) :=
  isLegal_identifier ⟨_, _, rfl, rfl, List.all_eq_true.1 rfl⟩
    (by simpa using underscore_notMem_typeCase name.toList) (by decide)

theorem isLegal_fieldName (name : String) : IsLegal modelMemberNames (fieldName name) :=
  isLegal_identifier ⟨_, _, rfl, rfl, List.all_eq_true.1 rfl⟩
    (by simpa using underscore_notMem_fieldCase name.toList) (by decide)

theorem isLegal_memberName (name : String) :
    IsLegal (sentinel :: enumMemberNames) (memberName name) :=
  isLegal_identifier ⟨_, _, rfl, rfl, List.all_eq_true.1 rfl⟩
    (by simpa using underscore_notMem_memberCase name.toList) (by decide)

end DartModels.Naming
