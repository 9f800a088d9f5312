import DartModels.Proofs.Naming.Casing
import DartModels.Proofs.Naming.Stem

/-! # Canonical stems

A stem is a text in lower case whose words are joined by single underscores. Among ASCII texts
these are exactly the texts that are their own stem, so taking the stem twice changes nothing.
-/

namespace DartModels.Naming

open Text

/-- Text in lower case, with single underscores between its words and none in front. -/
structure IsStem (s : List Char) : Prop where
  no_capital : ∀ c ∈ s, c.isUpper = false
  no_hyphen : '-' ∉ s
  no_blank : ∀ c ∈ s, isBlank c = false
  no_underscore_first : s.head? ≠ some '_'
  no_underscores : ¬ ['_', '_'] <:+: s

section Squeezing

variable {c : Char} {s : List Char}

theorem eq_underscore_of_mem_squeezeFrom {inRun : Bool} (h : c ∈ squeezeFrom inRun s)
    (hsep : isSeparator c = true) : c = '_' := by
  induction s generalizing inRun with
  | nil => exact absurd h List.not_mem_nil
  | cons d rest ih =>
    cases hd : isSeparator d
    · rw [squeezeFrom_word hd] at h
      rcases List.mem_cons.1 h with rfl | h
      · exact absurd hsep (by simp [hd])
      · exact ih h
    · rw [squeezeFrom_separator hd] at h
      rcases List.mem_append.1 h with h | h
      · cases inRun
        · exact List.mem_singleton.1 h
        · exact absurd h List.not_mem_nil
      · exact ih h

/-- Within a run that has been written, nothing is written before the next word. -/
theorem head?_squeezeFrom_true (s : List Char) : (squeezeFrom true s).head? ≠ some '_' := by
  induction s with
  | nil => nofun
  | cons d rest ih =>
    cases hd : isSeparator d
    · rw [squeezeFrom_word hd]
      rintro ⟨⟩
      cases hd
    · rw [squeezeFrom_separator hd]
      exact ih

theorem infix_underscores_cons_iff :
    ['_', '_'] <:+: c :: s ↔ c = '_' ∧ s.head? = some '_' ∨ ['_', '_'] <:+: s := by
  rw [List.infix_cons_iff, List.cons_prefix_cons, eq_comm (a := '_')]
  refine or_congr_left (and_congr_right fun _ => ?_)
  cases s with
  | nil => simp
  | cons d rest => simp [List.cons_prefix_cons, eq_comm]

/-- However a run of separators is written, it becomes one underscore. -/
theorem not_infix_squeezeFrom (inRun : Bool) (s : List Char) :
    ¬ ['_', '_'] <:+: squeezeFrom inRun s := by
  induction s generalizing inRun with
  | nil => simp [squeezeFrom]
  | cons d rest ih =>
    cases hd : isSeparator d
    · rw [squeezeFrom_word hd, infix_underscores_cons_iff]
      rintro (⟨rfl, -⟩ | h)
      · cases hd
      · exact ih false h
    · rw [squeezeFrom_separator hd]
      cases inRun
      · rw [if_neg Bool.false_ne_true, List.singleton_append, infix_underscores_cons_iff]
        rintro (⟨-, h⟩ | h)
        · exact head?_squeezeFrom_true rest h
        · exact ih true h
      · exact ih true

/-- Where single underscores are the only separators there is nothing to squeeze. -/
theorem squeezeFrom_eq_self {inRun : Bool} (hsep : ∀ c ∈ s, isSeparator c = true → c = '_')
    (hdouble : ¬ ['_', '_'] <:+: s) (hrun : inRun = true → s.head? ≠ some '_') :
    squeezeFrom inRun s = s := by
  induction s generalizing inRun with
  | nil => rfl
  | cons c rest ih =>
    obtain ⟨hc, hrest⟩ := List.forall_mem_cons.1 hsep
    rw [infix_underscores_cons_iff, not_or, not_and] at hdouble
    cases hd : isSeparator c
    · rw [squeezeFrom_word hd, ih hrest hdouble.2 fun h => absurd h Bool.false_ne_true]
    · obtain rfl := hc hd
      have hfresh : inRun = false := Bool.eq_false_iff.2 fun h => hrun h rfl
      rw [squeezeFrom_separator hd, hfresh, ih hrest hdouble.2 fun _ => hdouble.1 rfl]
      rfl

end Squeezing

section Stems

variable {s : List Char}

theorem mem_squeezed_of_mem_stem {c : Char} (h : c ∈ stem s) :
    c ∈ squeezeFrom false (lowerAll (markCapitals s)) :=
  mem_dropUnderscore h

theorem stem_suffix (s : List Char) : stem s <:+ squeezeFrom false (lowerAll (markCapitals s)) := by
  unfold stem dropUnderscore
  split
  · next rest heq => exact heq ▸ List.suffix_cons '_' rest
  · exact List.suffix_rfl

theorem isStem_stem (s : List Char) : IsStem (stem s) where
  no_capital c hc := by
    rcases mem_squeezeFrom (mem_squeezed_of_mem_stem hc) with rfl | hlow
    · rfl
    · exact isUpper_of_mem_lowerAll hlow
  no_hyphen hc := by
    have heq := eq_underscore_of_mem_squeezeFrom (mem_squeezed_of_mem_stem hc) rfl
    cases heq
  no_blank c hc := by
    cases hblank : isBlank c
    · rfl
    · -- the only separator that is written is no blank
      have hsep : isSeparator c = true := by simp [isSeparator, hblank]
      rw [eq_underscore_of_mem_squeezeFrom (mem_squeezed_of_mem_stem hc) hsep] at hblank
      exact hblank.symm.trans rfl
  no_underscore_first := by
    have hdouble := not_infix_squeezeFrom false (lowerAll (markCapitals s))
    unfold stem dropUnderscore
    split
    · next rest heq =>
      rw [heq, infix_underscores_cons_iff, not_or, not_and] at hdouble
      exact hdouble.1 rfl
    · next hhead =>
      intro h
      obtain ⟨rest, hrest⟩ := List.head?_eq_some_iff.1 h
      exact hhead rest hrest
  no_underscores h := not_infix_squeezeFrom false _ (h.trans (stem_suffix s).isInfix)

theorem IsStem.eq_underscore (h : IsStem s) {c : Char} (hc : c ∈ s)
    (hsep : isSeparator c = true) : c = '_' := by
  simp only [isSeparator, h.no_blank c hc, Bool.or_false, Bool.or_eq_true,
    decide_eq_true_eq] at hsep
  rcases hsep with rfl | rfl
  · rfl
  · exact absurd hc h.no_hyphen

theorem markCapitals_eq_self (h : ∀ c ∈ s, c.isUpper = false) : markCapitals s = s := by
  induction s with
  | nil => rfl
  | cons c rest ih =>
    obtain ⟨hc, hrest⟩ := List.forall_mem_cons.1 h
    rw [markCapitals_of_not_isUpper (by simp [hc]), ih hrest]

/-- Among ASCII texts the stems are the texts that are their own stem. -/
theorem stem_eq_self_iff (h : IsAscii s) : stem s = s ↔ IsStem s := by
  constructor
  · intro heq
    rw [← heq]
    exact isStem_stem s
  · intro hs
    have hkeep : ∀ c ∈ s, c.toLower = c := fun c hc =>
      Char.toLower_eq_of_not_isUpper (by simp [hs.no_capital c hc])
    have hlower : s.map Char.toLower = s := (List.map_congr_left hkeep).trans (List.map_id' s)
    rw [stem_of_ascii h, markCapitals_eq_self hs.no_capital, hlower,
      squeezeFrom_eq_self (fun _ => hs.eq_underscore) hs.no_underscores
        fun h => absurd h Bool.false_ne_true]
    unfold dropUnderscore
    split
    · exact absurd rfl hs.no_underscore_first
    · rfl

theorem isAscii_stem (h : IsAscii s) : IsAscii (stem s) := by
  rw [stem_of_ascii h]
  exact fun c hc => isAscii_squeezed h c (mem_dropUnderscore hc)

theorem stem_stem (h : IsAscii s) : stem (stem s) = stem s :=
  (stem_eq_self_iff (isAscii_stem h)).2 (isStem_stem s)

theorem fileStem_fileStem {name : String} (h : IsAscii name.toList) :
    fileStem (fileStem name) = fileStem name := by
  rw [fileStem, fileStem, String.toList_ofList, stem_stem h]

end Stems

end DartModels.Naming
