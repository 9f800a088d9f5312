import DartModels.Text.Segments
import Mathlib.Data.List.TakeWhile

/-! # Lines

A text without line breaks stands on one line, and so do texts put together of such texts. What is
written behind a text and a line feed leaves it the first line exactly if it is one line itself.
-/

namespace DartModels

theorem exists_of_mem_intercalate {c : Char} {sep : List Char} (hc : c ∉ sep)
    {pieces : List (List Char)} :
    c ∈ sep.intercalate pieces ↔ ∃ piece ∈ pieces, c ∈ piece := by
  induction pieces with
  | nil => simp
  | cons piece rest ih =>
    cases rest with
    | nil => simp
    | cons next rest => rw [List.intercalate_cons_cons]; simp [hc, ih]

namespace Text

/-- A line feed or a carriage return. -/
def isLineBreak (c : Char) : Bool :=
  c = '\n' || c = '\r'

/-- A text without line breaks. -/
def OneLine (s : String) : Prop :=
  ∀ c ∈ s.toList, isLineBreak c = false

instance (s : String) : Decidable (OneLine s) :=
  List.decidableBAll (fun c => isLineBreak c = false) s.toList

/-- A text up to its first line break. -/
def firstLine (s : String) : String :=
  String.ofList (s.toList.takeWhile fun c => !isLineBreak c)

variable {s t sep : String}

theorem oneLine_append_iff : OneLine (s ++ t) ↔ OneLine s ∧ OneLine t := by
  simp only [OneLine, String.toList_append, List.forall_mem_append]

theorem oneLine_ofList_iff {s : List Char} :
    OneLine (String.ofList s) ↔ ∀ c ∈ s, isLineBreak c = false := by
  rw [OneLine, String.toList_ofList]

theorem oneLine_intercalate_iff (hsep : OneLine sep) {pieces : List String} :
    OneLine (sep.intercalate pieces) ↔ ∀ piece ∈ pieces, OneLine piece := by
  have hmem : ∀ c, isLineBreak c = true →
      (c ∈ (sep.intercalate pieces).toList ↔ ∃ piece ∈ pieces, c ∈ piece.toList) := by
    intro c hc
    have hnone : c ∉ sep.toList := fun h => absurd (hsep c h) (by simp [hc])
    rw [String.toList_intercalate, exists_of_mem_intercalate hnone]
    simp
  constructor
  · intro h piece hpiece c hc
    refine eq_false_of_ne_true fun hbreak => ?_
    have hwhole := h c ((hmem c hbreak).2 ⟨piece, hpiece, hc⟩)
    exact absurd hwhole (by simp [hbreak])
  · intro h c hc
    refine eq_false_of_ne_true fun hbreak => ?_
    obtain ⟨piece, hpiece, hcp⟩ := (hmem c hbreak).1 hc
    exact absurd (h piece hpiece c hcp) (by simp [hbreak])

theorem firstLine_append_iff (s t : String) :
    firstLine (s ++ "\n" ++ t) = s ↔ OneLine s := by
  constructor
  · intro h c hc
    rw [← h, firstLine, String.toList_ofList] at hc
    simpa using List.mem_takeWhile_imp hc
  · intro h
    have hkept : ∀ c ∈ s.toList, (!isLineBreak c) = true := fun c hc => by rw [h c hc]; rfl
    apply String.toList_injective
    rw [firstLine, String.toList_ofList, String.append_assoc, String.toList_append,
      List.takeWhile_append_of_pos hkept]
    simp [isLineBreak]

end Text

end DartModels
