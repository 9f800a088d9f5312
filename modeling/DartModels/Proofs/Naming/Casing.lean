import DartModels.Proofs.Naming.Legal

/-! # The case of the first letter

A name is cased before the characters that an identifier cannot hold are dropped. The identifier
starts with a letter of the wrong case exactly if all that was given the right case is dropped and
the next letter has the wrong one.
-/

namespace DartModels.Naming

open Text

variable {c d : Char}

section Case

theorem isLower_iff : d.isLower = true ↔ 97 ≤ d.toNat ∧ d.toNat ≤ 122 := by
  change (decide (97 ≤ d.val) && decide (d.val ≤ 122)) = true ↔ _
  simp [UInt32.le_iff_toNat_le]

theorem isUpper_iff : d.isUpper = true ↔ 65 ≤ d.toNat ∧ d.toNat ≤ 90 := by
  change decide (65 ≤ d.val ∧ d.val ≤ 90) = true ↔ _
  simp [UInt32.le_iff_toNat_le]

/-- No upper case holds a lowercase letter. -/
theorem upper_tables_of_one_case : ∀ n < 123, 97 ≤ n →
    Char.ofNat n ∉ upper (Char.ofNat n) ∧ (∀ e ∈ upperExpansions, n ∉ e.2) ∧
      ∀ r ∈ upperRuns, r.contains ((n : Int) - r.shift).toNat = false := by
  decide +kernel

/-- No lower case holds a capital letter. -/
theorem lower_tables_of_one_case : ∀ n < 91, 65 ≤ n →
    Char.ofNat n ∉ lower (Char.ofNat n) ∧ (∀ e ∈ lowerExpansions, n ∉ e.2) ∧
      ∀ r ∈ lowerRuns, r.contains ((n : Int) - r.shift).toNat = false := by
  decide +kernel

/-- A character that no entry of the tables leads to, and that does not lead to itself. -/
theorem notMem_expandIn_of_tables {expansions : List (Nat × List Nat)} {runs : List CaseRun}
    (hpos : 0 < d.toNat)
    (h : Char.ofNat d.toNat ∉ expandIn expansions runs (Char.ofNat d.toNat) ∧
      (∀ e ∈ expansions, d.toNat ∉ e.2) ∧
        ∀ r ∈ runs, r.contains ((d.toNat : Int) - r.shift).toNat = false) :
    d ∉ expandIn expansions runs c := by
  obtain ⟨hself, hexpansions, hruns⟩ := h
  rw [Char.ofNat_toNat] at hself
  have hnul : d ≠ '\x00' := by
    rintro rfl
    exact absurd hpos (by decide)
  by_cases hc : c = d
  · rwa [hc]
  · exact notMem_expandIn hnul hexpansions hruns hc

theorem isLower_of_mem_upper (h : d ∈ upper c) : d.isLower = false := by
  refine eq_false_of_ne_true fun hlower => ?_
  obtain ⟨hfirst, hlast⟩ := isLower_iff.1 hlower
  exact notMem_expandIn_of_tables (by omega) (upper_tables_of_one_case _ (by omega) hfirst) h

theorem isUpper_of_mem_lower (h : d ∈ lower c) : d.isUpper = false := by
  refine eq_false_of_ne_true fun hupper => ?_
  obtain ⟨hfirst, hlast⟩ := isUpper_iff.1 hupper
  exact notMem_expandIn_of_tables (by omega) (lower_tables_of_one_case _ (by omega) hfirst) h

theorem isUpper_of_mem_lowerAll {s : List Char} (h : d ∈ lowerAll s) : d.isUpper = false := by
  suffices ∀ cased, d ∈ lowerAfter cased s → d.isUpper = false from this false h
  clear h
  induction s with
  | nil => nofun
  | cons c rest ih =>
    intro cased h
    rw [lowerAfter, List.mem_append] at h
    rcases h with h | h
    · split at h
      · rw [List.mem_singleton.1 h]
        decide
      · exact isUpper_of_mem_lower h
    · exact ih _ h

theorem isDigit_eq_false (h : 58 ≤ c.toNat) : c.isDigit = false := by
  refine eq_false_of_ne_true fun hdigit => ?_
  simp only [Char.isDigit, Bool.and_eq_true, decide_eq_true_eq] at hdigit
  have hlast : c.toNat ≤ 57 := UInt32.le_iff_toNat_le.1 hdigit.2
  omega

theorem isDigit_of_isLower (h : c.isLower = true) : c.isDigit = false :=
  isDigit_eq_false (Nat.le_trans (by decide) (isLower_iff.1 h).1)

theorem isDigit_of_isUpper (h : c.isUpper = true) : c.isDigit = false :=
  isDigit_eq_false (Nat.le_trans (by decide) (isUpper_iff.1 h).1)

theorem isDigit_of_isAlpha (h : c.isAlpha = true) : c.isDigit = false := by
  rcases Bool.or_eq_true_iff.1 (h : (c.isUpper || c.isLower) = true) with hupper | hlower
  · exact isDigit_of_isUpper hupper
  · exact isDigit_of_isLower hlower

end Case

/-- The part of a name that was given a case leaves nothing to an identifier, and what is left
starts with the wrong case. -/
def StartsAmiss (wrong : Char → Bool) (cased rest : List Char) : Prop :=
  cased.filter isIdentifierChar = [] ∧
    (rest.filter isIdentifierChar).head?.any wrong = true

section Identifiers

variable {fallback : String} {reserved : List String} {wrong : Char → Bool}

theorem head_identifier {name : String} (hfallback : IsWord fallback.toList)
    (hname : '_' ∉ name.toList) : (identifier fallback reserved name).toList.head? =
      (bareIdentifier fallback.toList name.toList).head? := by
  obtain ⟨first, others, hword, -⟩ := isWord_bareIdentifier hfallback hname
  unfold identifier
  dsimp only
  split <;> simp [hword]

/-- The first character that is left decides, unless it is a digit: then the fallback does. -/
theorem any_head_bareIdentifier {fallback name : List Char} (hfallback : IsWord fallback)
    (hright : fallback.head?.any wrong = false) (hdigit : ∀ c, wrong c = true → c.isDigit = false) :
    (bareIdentifier fallback name).head?.any wrong =
      (name.filter isIdentifierChar).head?.any wrong := by
  obtain ⟨first, others, rfl, -⟩ := hfallback
  unfold bareIdentifier
  split
  · next hfilter => rw [hfilter, hright, List.head?_nil, Option.any_none]
  · next c kept hfilter =>
    rw [hfilter]
    split
    · next hc =>
      have hwrong : wrong c = false := by
        refine eq_false_of_ne_true fun h => ?_
        rw [hdigit c h] at hc
        cases hc
      rw [List.head?_cons, Option.any_some, hwrong]
      exact hright
    · rfl

theorem any_head_identifier_iff (hfallback : IsWord fallback.toList)
    (hright : fallback.toList.head?.any wrong = false)
    (hdigit : ∀ c, wrong c = true → c.isDigit = false) {cased rest : List Char}
    (hname : '_' ∉ cased ++ rest) (hcased : ∀ c ∈ cased, wrong c = false) :
    (identifier fallback reserved (String.ofList (cased ++ rest))).toList.head?.any wrong = true ↔
      StartsAmiss wrong cased rest := by
  rw [← String.toList_ofList (l := cased ++ rest)] at hname
  rw [head_identifier hfallback hname, any_head_bareIdentifier hfallback hright hdigit,
    String.toList_ofList, List.filter_append, StartsAmiss]
  cases hkept : cased.filter isIdentifierChar with
  | nil => simp
  | cons c kept =>
    have hc : c ∈ cased.filter isIdentifierChar := hkept ▸ List.mem_cons_self
    simp [hcased c (List.mem_filter.1 hc).1]

end Identifiers

/-- The case of words that are run together is lost: their first character is dropped in the form
that it was given. -/
def WordsAmiss (form : Char → List Char) (wrong : Char → Bool) (name : String) : Prop :=
  ∃ c rest, camel name.toList = c :: rest ∧ StartsAmiss wrong (form c) rest

/-- The case of a literal is lost: nothing is left of its first word. -/
def LiteralAmiss (literal : String) : Prop :=
  isLowerCamel literal.toList = false ∧
    ∃ head words, segments (fun c => isSeparator c || c = '.') literal.toList = head :: words ∧
      StartsAmiss Char.isUpper (lowerAll head) (words.flatMap capitalized)

section Names

variable {name : String}

/-- Words run together, of which `first` has changed the first character to its `form`. -/
theorem any_head_words_iff {fallback : String} {reserved : List String} {wrong : Char → Bool}
    {form : Char → List Char} {first : List Char → List Char} (hnil : first [] = [])
    (hcons : ∀ c rest, first (c :: rest) = form c ++ rest) (hfallback : IsWord fallback.toList)
    (hright : fallback.toList.head?.any wrong = false)
    (hdigit : ∀ c, wrong c = true → c.isDigit = false)
    (hform : ∀ c, ∀ d ∈ form c, wrong d = false) (hname : '_' ∉ first (camel name.toList)) :
    (identifier fallback reserved (String.ofList (first (camel name.toList)))).toList.head?.any
      wrong = true ↔ WordsAmiss form wrong name := by
  unfold WordsAmiss
  generalize camel name.toList = words at hname ⊢
  cases words with
  | nil =>
    have hnone : '_' ∉ ([] ++ [] : List Char) := List.not_mem_nil
    rw [hnil]
    refine iff_of_false (fun h => ?_) ?_
    · have hempty := (any_head_identifier_iff hfallback hright hdigit hnone
        (List.forall_mem_nil _)).1 h
      exact absurd hempty.2 (by simp)
    · rintro ⟨c, rest, ⟨⟩, -⟩
  | cons c rest =>
    rw [hcons] at hname ⊢
    rw [any_head_identifier_iff hfallback hright hdigit hname (hform c)]
    constructor
    · exact fun h => ⟨c, rest, rfl, h⟩
    · rintro ⟨_, _, ⟨⟩, h⟩
      exact h

theorem isLower_head_typeName_iff :
    (typeName name).toList.head?.any Char.isLower = true ↔ WordsAmiss upper Char.isLower name :=
  any_head_words_iff upperFirst_nil (fun _ _ => rfl) ⟨_, _, rfl, rfl, List.all_eq_true.1 rfl⟩ rfl
    (fun _ => isDigit_of_isLower) (fun _ _ => isLower_of_mem_upper)
    (underscore_notMem_typeCase name.toList)

theorem isUpper_head_fieldName_iff :
    (fieldName name).toList.head?.any Char.isUpper = true ↔ WordsAmiss lower Char.isUpper name :=
  any_head_words_iff lowerFirst_nil (fun _ _ => rfl) ⟨_, _, rfl, rfl, List.all_eq_true.1 rfl⟩ rfl
    (fun _ => isDigit_of_isUpper) (fun _ _ => isUpper_of_mem_lower)
    (underscore_notMem_fieldCase name.toList)

/-- A letter of the right case is not dropped. -/
theorem not_startsAmiss_of_isLower {c : Char} (h : c.isLower = true) (rest : List Char) :
    ¬ StartsAmiss Char.isUpper [c] rest := by
  rintro ⟨hkept, -⟩
  have halpha : c.isAlpha = true := Bool.or_eq_true_iff.2 (Or.inr h)
  simp [isIdentifierChar, Char.isAlphanum, halpha] at hkept

theorem isUpper_of_isLower {c : Char} (h : c.isLower = true) : c.isUpper = false := by
  refine eq_false_of_ne_true fun hupper => ?_
  have hfirst := (isLower_iff.1 h).1
  have hlast := (isUpper_iff.1 hupper).2
  omega

theorem isUpper_head_memberName_iff :
    (memberName name).toList.head?.any Char.isUpper = true ↔ LiteralAmiss name := by
  have hword : IsWord "value".toList := ⟨_, _, rfl, rfl, List.all_eq_true.1 rfl⟩
  have hname := underscore_notMem_memberCase name.toList
  unfold memberName LiteralAmiss
  unfold memberCase at hname ⊢
  split at hname
  · next hcamel =>
    -- such a literal stands for itself, and its first letter has the right case
    refine iff_of_false ?_ fun h => absurd (hcamel.symm.trans h.1) (by decide)
    rw [if_pos hcamel]
    cases hs : name.toList with
    | nil => cases hs ▸ hcamel
    | cons c rest =>
      rw [hs] at hname hcamel
      rw [isLowerCamel, Bool.and_eq_true] at hcamel
      have hsplit : '_' ∉ [c] ++ rest := hname
      refine mt (any_head_identifier_iff hword rfl (fun _ => isDigit_of_isUpper) hsplit ?_).1
        (not_startsAmiss_of_isLower hcamel.1 rest)
      exact List.forall_mem_singleton.2 (isUpper_of_isLower hcamel.1)
  · next hcamel =>
    rw [if_neg hcamel]
    cases hwords : segments (fun c => isSeparator c || c = '.') name.toList with
    | nil => exact absurd hwords (segments_ne_nil _ _)
    | cons head words =>
      rw [hwords] at hname
      refine (any_head_identifier_iff hword rfl (fun _ => isDigit_of_isUpper) hname
        fun _ => isUpper_of_mem_lowerAll).trans ?_
      constructor
      · exact fun h => ⟨eq_false_of_ne_true hcamel, head, words, rfl, h⟩
      · rintro ⟨-, _, _, ⟨⟩, h⟩
        exact h

/-- Where type case is kept, a type name starts with a capital letter. -/
theorem isUpper_head_typeName (h : ¬ WordsAmiss upper Char.isLower name) :
    (typeName name).toList.head?.any Char.isUpper = true := by
  obtain ⟨word, tail, hshape, ⟨first, rest, rfl, halpha, -⟩, -⟩ := (isLegal_typeName name).shape
  have hlower := mt isLower_head_typeName_iff.1 h
  rw [hshape] at hlower ⊢
  exact (Bool.or_eq_true_iff.1 halpha).resolve_right hlower

end Names

end DartModels.Naming
