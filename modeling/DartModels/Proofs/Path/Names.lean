import DartModels.Path
import Mathlib.Tactic.Common

/-! # Paths of names

A name without a slash that is neither empty nor made of dots is a path of one segment. From inside
a folder, the path that goes up and then down through two names leads to the same place as those
names lead to from outside.
-/

namespace DartModels

namespace Text

variable {p : Char → Bool} {a b : List Char}

theorem segments_of_forall (h : ∀ c ∈ a, p c = false) : segments p a = [a] := by
  induction a with
  | nil => rfl
  | cons c rest ih =>
    have hrest := ih fun d hd => h d (List.mem_cons_of_mem c hd)
    simp [segments, h c List.mem_cons_self, hrest]

theorem segments_append {sep : Char} (h : ∀ c ∈ a, p c = false) (hsep : p sep = true) :
    segments p (a ++ sep :: b) = a :: segments p b := by
  induction a with
  | nil => simp [segments, hsep]
  | cons c rest ih =>
    have hrest := ih fun d hd => h d (List.mem_cons_of_mem c hd)
    simp [segments, h c List.mem_cons_self, hrest]

/-- Text without separators in front is only more of the first piece. -/
theorem segments_append_of_forall {piece : List Char} {pieces : List (List Char)}
    (h : ∀ c ∈ a, p c = false) (hb : segments p b = piece :: pieces) :
    segments p (a ++ b) = (a ++ piece) :: pieces := by
  induction a with
  | nil => exact hb
  | cons c rest ih =>
    have hrest := ih fun d hd => h d (List.mem_cons_of_mem c hd)
    simp [segments, h c List.mem_cons_self, hrest]

/-- Without separators, more text is only more of the last piece. -/
theorem exists_segments_append (a : List Char) (h : ∀ c ∈ b, p c = false) :
    ∃ init last, segments p a = init ++ [last] ∧ segments p (a ++ b) = init ++ [last ++ b] := by
  induction a with
  | nil => exact ⟨[], [], rfl, segments_of_forall h⟩
  | cons c rest ih =>
    obtain ⟨init, last, ha, hab⟩ := ih
    by_cases hc : p c = true
    · exact ⟨[] :: init, last, by simp [segments, hc, ha], by simp [segments, hc, hab]⟩
    · cases init with
      | nil => exact ⟨[], c :: last, by simp [segments, hc, ha], by simp [segments, hc, hab]⟩
      | cons piece others =>
        exact ⟨(c :: piece) :: others, last, by simp [segments, hc, ha],
          by simp [segments, hc, hab]⟩

end Text

namespace Path

/-- A name that is an ordinary segment of a path. -/
structure IsName (s : String) : Prop where
  no_slash : '/' ∉ s.toList
  ne_empty : s ≠ ""
  ne_dot : s ≠ "."
  ne_dots : s ≠ ".."

instance (s : String) : Decidable (IsName s) :=
  decidable_of_iff ('/' ∉ s.toList ∧ s ≠ "" ∧ s ≠ "." ∧ s ≠ "..")
    ⟨fun ⟨h₁, h₂, h₃, h₄⟩ => ⟨h₁, h₂, h₃, h₄⟩, fun ⟨h₁, h₂, h₃, h₄⟩ => ⟨h₁, h₂, h₃, h₄⟩⟩

variable {s a b : String}

theorem not_slash_of_notMem {s : List Char} (h : '/' ∉ s) : ∀ c ∈ s, (c == '/') = false := by
  intro c hc
  simp only [beq_eq_false_iff_ne]
  rintro rfl
  exact h hc

theorem IsName.kept (h : IsName s) : (s != "" && s != ".") = true := by
  simp [h.ne_empty, h.ne_dot]

theorem rootSlashes_of_head {c : Char} {s : List Char} (h : c ≠ '/') :
    rootSlashes (c :: s) = 0 := by
  simp [rootSlashes, h]

theorem ofString_name (h : IsName s) : ofString s = ⟨0, [s]⟩ := by
  have hsplit : Text.split '/' s = [s] := by
    rw [Text.split, Text.segments_of_forall (not_slash_of_notMem h.no_slash)]
    simp
  have hroot : rootSlashes s.toList = 0 := by
    cases hs : s.toList with
    | nil => rfl
    | cons c rest =>
      refine rootSlashes_of_head ?_
      rintro rfl
      exact h.no_slash (hs ▸ List.mem_cons_self)
  rw [ofString, hsplit, hroot]
  simp [h.kept]

theorem ofString_above (ha : IsName a) (hb : IsName b) :
    ofString s!"../{a}/{b}" = ⟨0, ["..", a, b]⟩ := by
  have htext : (s!"../{a}/{b}").toList = ['.', '.'] ++ '/' :: (a.toList ++ '/' :: b.toList) := by
    simp [String.toList_append, toString]
  have hsplit : Text.split '/' s!"../{a}/{b}" = ["..", a, b] := by
    have hdots : ∀ c ∈ ['.', '.'], (c == '/') = false := by simp
    rw [Text.split, htext, Text.segments_append hdots rfl,
      Text.segments_append (not_slash_of_notMem ha.no_slash) rfl,
      Text.segments_of_forall (not_slash_of_notMem hb.no_slash)]
    simp
  have hroot : rootSlashes (s!"../{a}/{b}").toList = 0 := by
    rw [htext]
    exact rootSlashes_of_head (by decide)
  rw [ofString, hsplit, hroot]
  simp [ha.kept, hb.kept]

theorem join_names (ha : IsName a) (hb : IsName b) :
    (ofString a).join (ofString b) = ⟨0, [a, b]⟩ := by
  rw [ofString_name ha, ofString_name hb]
  rfl

/-- A path out of one folder into another does not depend on where it starts. -/
theorem normalized_join_above {here : String} (h : IsName here) (ha : IsName a) (hb : IsName b) :
    ((ofString here).join (ofString s!"../{a}/{b}")).normalized =
      (ofString a).join (ofString b) := by
  rw [join_names ha hb, ofString_name h, ofString_above ha hb]
  simp [join, isAbsolute, normalized, h.ne_dots, ha.ne_dots, hb.ne_dots]

end Path

end DartModels
