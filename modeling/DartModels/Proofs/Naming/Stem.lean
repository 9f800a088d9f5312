import DartModels.Naming.Identifier
import Mathlib

/-! # Stems and type names

On ASCII names the case tables agree with the case of letters, and a stem keeps everything that
type case looks at. Names with the same stem therefore have the same type name.
-/

namespace DartModels.Naming

open Text

/-- Text without a character above the first 128. -/
def IsAscii (s : List Char) : Prop :=
  ∀ c ∈ s, c.toNat < 128

instance (s : List Char) : Decidable (IsAscii s) :=
  decidable_of_iff ((s.all fun c => c.toNat < 128) = true) (by simp [IsAscii])

theorem IsAscii.head {c : Char} {s : List Char} (h : IsAscii (c :: s)) : c.toNat < 128 :=
  h c List.mem_cons_self

theorem IsAscii.tail {c : Char} {s : List Char} (h : IsAscii (c :: s)) : IsAscii s :=
  fun d hd => h d (List.mem_cons_of_mem c hd)

section Characters

/-- A character shifted if it is in a run. -/
def shifted (r : CaseRun) (c : Char) : Char :=
  if r.contains c.toNat then Char.ofNat (c.toNat + r.shift).toNat else c

/-- Only the first run of a case table and none of its expansions concern ASCII. -/
theorem expandIn_of_lt {expansions : List (Nat × List Nat)} {runs : List CaseRun} {r : CaseRun}
    {c : Char} (he : ∀ e ∈ expansions, 128 ≤ e.1) (hr : ∀ q ∈ runs, 128 ≤ q.first)
    (hc : c.toNat < 128) : expandIn expansions (r :: runs) c = [shifted r c] := by
  have hexpand : expansions.find? (fun e => e.1 == c.toNat) = none := by
    simp only [List.find?_eq_none, beq_iff_eq]
    intro e hmem heq
    have := he e hmem
    omega
  have hruns : runs.find? (fun q => q.contains c.toNat) = none := by
    simp only [List.find?_eq_none, CaseRun.contains, Bool.and_eq_true, decide_eq_true_eq]
    intro q hmem hq
    have := hr q hmem
    omega
  rw [expandIn, hexpand, shiftIn, shifted, List.find?_cons]
  cases r.contains c.toNat <;> simp [hruns]

theorem tables_above_ascii :
    ((∀ e ∈ lowerExpansions, 128 ≤ e.1) ∧ ∀ q ∈ lowerRuns.tail, 128 ≤ q.first) ∧
      (∀ e ∈ upperExpansions, 128 ≤ e.1) ∧ ∀ q ∈ upperRuns.tail, 128 ≤ q.first := by
  decide +kernel

/-- On ASCII the first runs of the case tables are the case of letters, which stays in ASCII. -/
theorem case_of_lt : ∀ n < 128, let c := Char.ofNat n
    (shifted ⟨0x41, 0x5A, 1, 32⟩ c = c.toLower ∧ c.toLower.toNat < 128) ∧
      shifted ⟨0x61, 0x7A, 1, (-32)⟩ c = c.toUpper ∧ c.toUpper.toNat < 128 := by
  decide +kernel

theorem case_of_ascii {c : Char} (h : c.toNat < 128) :
    (shifted ⟨0x41, 0x5A, 1, 32⟩ c = c.toLower ∧ c.toLower.toNat < 128) ∧
      shifted ⟨0x61, 0x7A, 1, (-32)⟩ c = c.toUpper ∧ c.toUpper.toNat < 128 := by
  have hc := case_of_lt c.toNat h
  rwa [Char.ofNat_toNat] at hc

theorem lower_of_ascii {c : Char} (h : c.toNat < 128) : lower c = [c.toLower] := by
  obtain ⟨⟨he, hr⟩, -⟩ := tables_above_ascii
  have hruns : lowerRuns = ⟨0x41, 0x5A, 1, 32⟩ :: lowerRuns.tail := rfl
  rw [lower, hruns, expandIn_of_lt he hr h, (case_of_ascii h).1.1]

theorem upper_of_ascii {c : Char} (h : c.toNat < 128) : upper c = [c.toUpper] := by
  obtain ⟨-, he, hr⟩ := tables_above_ascii
  have hruns : upperRuns = ⟨0x61, 0x7A, 1, (-32)⟩ :: upperRuns.tail := rfl
  rw [upper, hruns, expandIn_of_lt he hr h, (case_of_ascii h).2.1]

theorem toNat_toLower_lt {c : Char} (h : c.toNat < 128) : c.toLower.toNat < 128 :=
  (case_of_ascii h).1.2

theorem toNat_toUpper_lt {c : Char} (h : c.toNat < 128) : c.toUpper.toNat < 128 :=
  (case_of_ascii h).2.2

theorem isSeparator_of_isAlpha {c : Char} (h : c.isAlpha = true) : isSeparator c = false := by
  have hrange : 65 ≤ c.toNat ∧ c.toNat ≤ 90 ∨ 97 ≤ c.toNat ∧ c.toNat ≤ 122 := by
    simpa [Char.isAlpha, Char.isUpper, Char.isLower, UInt32.le_iff_toNat_le] using h
  have hmark : c ≠ '_' ∧ c ≠ '-' := by
    constructor <;> rintro rfl <;> simp at hrange
  have hblank : isBlank c = false := by
    simp only [isBlank, Ranges.contains, blankRanges, List.any_eq_false, List.mem_cons,
      List.not_mem_nil, or_false, Bool.and_eq_true, decide_eq_true_eq]
    rintro r (rfl | rfl | rfl | rfl | rfl | rfl | rfl | rfl | rfl | rfl) <;> simp <;> omega
  simp [isSeparator, hmark, hblank]

end Characters

theorem lowerAll_of_ascii {s : List Char} (h : IsAscii s) : lowerAll s = s.map Char.toLower := by
  suffices ∀ cased, lowerAfter cased s = s.map Char.toLower from this false
  induction s with
  | nil => exact fun _ => rfl
  | cons c rest ih =>
    intro cased
    have hc : c ≠ 'Σ' := by
      rintro rfl
      exact absurd h.head (by decide)
    simp [lowerAfter, hc, lower_of_ascii h.head, ih h.tail]

section Words

variable {c : Char} {s : List Char}

theorem camelFrom_separator (h : isSeparator c = true) (fresh : Bool) :
    camelFrom fresh (c :: s) = camelFrom true s := by
  simp [camelFrom, h]

theorem camelFrom_of_ascii (h : isSeparator c = false) (hc : c.toNat < 128) (fresh : Bool) :
    camelFrom fresh (c :: s) = (if fresh then c.toUpper else c) :: camelFrom false s := by
  cases fresh <;> simp [camelFrom, h, upper_of_ascii hc]

/-- An underscore that has been written counts as a separator that has been passed. -/
theorem camelFrom_underscore (fresh : Bool) :
    camelFrom fresh ((if fresh then [] else ['_']) ++ s) = camelFrom true s := by
  cases fresh
  · exact camelFrom_separator rfl false
  · rfl

theorem markCapitals_of_isUpper (h : c.isUpper = true) :
    markCapitals (c :: s) = '_' :: c :: markCapitals s := by
  simp [markCapitals, h]

theorem markCapitals_of_not_isUpper (h : ¬ c.isUpper = true) :
    markCapitals (c :: s) = c :: markCapitals s := by
  simp [markCapitals, h]

theorem squeezeFrom_separator (h : isSeparator c = true) (inRun : Bool) :
    squeezeFrom inRun (c :: s) = (if inRun then [] else ['_']) ++ squeezeFrom true s := by
  rw [squeezeFrom, if_pos h]

theorem squeezeFrom_word (h : isSeparator c = false) (inRun : Bool) :
    squeezeFrom inRun (c :: s) = c :: squeezeFrom false s := by
  simp [squeezeFrom, h]

/-- Squeezing loses no boundary between words: what was a capital follows an underscore. -/
theorem camelFrom_squeezeFrom (h : IsAscii s) (fresh : Bool) :
    camelFrom fresh (squeezeFrom fresh ((markCapitals s).map Char.toLower)) =
      camelFrom fresh s := by
  induction s generalizing fresh with
  | nil => rfl
  | cons c rest ih =>
    have hc := h.head
    by_cases hupper : c.isUpper = true
    · have hword : isSeparator c = false := isSeparator_of_isAlpha (by simp [Char.isAlpha, hupper])
      have hlow : isSeparator c.toLower = false :=
        isSeparator_of_isAlpha (by simp [Char.isAlpha, hupper])
      have hsame : c.toUpper = c :=
        Char.toUpper_eq_of_not_isLower (Char.not_isLower_of_isUpper hupper)
      rw [markCapitals_of_isUpper hupper, List.map_cons, List.map_cons,
        squeezeFrom_separator rfl, camelFrom_underscore, squeezeFrom_word hlow,
        camelFrom_of_ascii hlow (toNat_toLower_lt hc), ih h.tail, camelFrom_of_ascii hword hc]
      simp [hsame]
    · have hsame : c.toLower = c := Char.toLower_eq_of_not_isUpper hupper
      rw [markCapitals_of_not_isUpper hupper, List.map_cons, hsame]
      cases hsep : isSeparator c
      · rw [squeezeFrom_word hsep, camelFrom_of_ascii hsep hc, ih h.tail,
          camelFrom_of_ascii hsep hc]
      · rw [squeezeFrom_separator hsep, camelFrom_underscore, ih h.tail,
          camelFrom_separator hsep]

/-- The first character of type case is the same whether or not a separator stands before it. -/
theorem upperFirst_camelFrom (h : IsAscii s) (fresh : Bool) :
    upperFirst (camelFrom fresh s) = upperFirst (camelFrom false s) := by
  cases s with
  | nil => rfl
  | cons c rest =>
    have hc := h.head
    cases hsep : isSeparator c
    · rw [camelFrom_of_ascii hsep hc, camelFrom_of_ascii hsep hc]
      cases fresh
      · rfl
      · simp [upperFirst, upper_of_ascii hc, upper_of_ascii (toNat_toUpper_lt hc)]
    · rw [camelFrom_separator hsep, camelFrom_separator hsep]

theorem typeCase_dropUnderscore (h : IsAscii s) : typeCase (dropUnderscore s) = typeCase s := by
  unfold dropUnderscore
  split
  · next rest =>
    have hcamel : camel ('_' :: rest) = camelFrom true rest := camelFrom_separator rfl false
    rw [typeCase, typeCase, hcamel, upperFirst_camelFrom h.tail, camel]
  · rfl

end Words

section Characters

variable {c : Char} {s : List Char}

theorem mem_markCapitals (h : c ∈ markCapitals s) : c = '_' ∨ c ∈ s := by
  obtain ⟨d, hd, hc⟩ := List.mem_flatMap.1 h
  split at hc
  · rcases List.mem_cons.1 hc with hc | hc
    · exact Or.inl hc
    · exact Or.inr (List.mem_singleton.1 hc ▸ hd)
  · exact Or.inr (List.mem_singleton.1 hc ▸ hd)

theorem mem_squeezeFrom {inRun : Bool} (h : c ∈ squeezeFrom inRun s) : c = '_' ∨ c ∈ s := by
  induction s generalizing inRun with
  | nil => exact absurd h List.not_mem_nil
  | cons d rest ih =>
    unfold squeezeFrom at h
    split at h
    · rcases List.mem_append.1 h with h | h
      · split at h
        · exact absurd h List.not_mem_nil
        · exact Or.inl (List.mem_singleton.1 h)
      · exact (ih h).imp_right (List.mem_cons_of_mem d)
    · rcases List.mem_cons.1 h with h | h
      · exact Or.inr (h ▸ List.mem_cons_self)
      · exact (ih h).imp_right (List.mem_cons_of_mem d)

theorem mem_dropUnderscore (h : c ∈ dropUnderscore s) : c ∈ s := by
  unfold dropUnderscore at h
  split at h
  · exact List.mem_cons_of_mem '_' h
  · exact h

theorem stem_of_ascii (h : IsAscii s) :
    stem s = dropUnderscore (squeezeFrom false ((markCapitals s).map Char.toLower)) := by
  have hmarked : IsAscii (markCapitals s) := by
    intro c hc
    rcases mem_markCapitals hc with rfl | hc
    · decide
    · exact h c hc
  rw [stem, lowerAll_of_ascii hmarked]

theorem mem_squeezed (h : c ∈ squeezeFrom false ((markCapitals s).map Char.toLower)) :
    c = '_' ∨ ∃ d ∈ s, c = d.toLower := by
  rcases mem_squeezeFrom h with hc | hc
  · exact Or.inl hc
  · obtain ⟨d, hd, rfl⟩ := List.mem_map.1 hc
    rcases mem_markCapitals hd with rfl | hd
    · exact Or.inl rfl
    · exact Or.inr ⟨d, hd, rfl⟩

theorem isAscii_squeezed (h : IsAscii s) :
    IsAscii (squeezeFrom false ((markCapitals s).map Char.toLower)) := by
  intro c hc
  rcases mem_squeezed hc with rfl | ⟨d, hd, rfl⟩
  · decide
  · exact toNat_toLower_lt (h d hd)

/-- A stem holds a character that is neither an underscore nor a letter only if the name does. -/
theorem mem_of_mem_stem (h : IsAscii s) (hc : c ∈ stem s) (hmark : c ≠ '_')
    (hletter : c.isAlpha = false) : c ∈ s := by
  rw [stem_of_ascii h] at hc
  rcases mem_squeezed (mem_dropUnderscore hc) with hc | ⟨d, hd, rfl⟩
  · exact absurd hc hmark
  · have hupper : ¬ d.isUpper = true := fun hup => by simp [Char.isAlpha, hup] at hletter
    rwa [Char.toLower_eq_of_not_isUpper hupper]

end Characters

/-- A stem says as much about the type name as the name itself. -/
theorem typeCase_stem {s : List Char} (h : IsAscii s) : typeCase (stem s) = typeCase s := by
  rw [stem_of_ascii h, typeCase_dropUnderscore (isAscii_squeezed h), typeCase, camel,
    camelFrom_squeezeFrom h, typeCase, camel]

theorem typeName_eq_of_fileStem_eq {a b : String} (ha : IsAscii a.toList) (hb : IsAscii b.toList)
    (h : fileStem a = fileStem b) : typeName a = typeName b := by
  have hstem : stem a.toList = stem b.toList := String.ofList_injective h
  rw [typeName, typeName, ← typeCase_stem ha, ← typeCase_stem hb, hstem]

end DartModels.Naming
