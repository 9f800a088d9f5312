import DartModels.Proofs.Path.Names
import DartModels.Proofs.Text.Lines

/-! # The last segment

The last segment of a path depends neither on the folders in front of it nor on the slashes and
single dots with which the path is written. A text that has no last segment consists of slashes and
dots.
-/

namespace DartModels

namespace Text

variable {p : Char → Bool}

/-- A separator divides the pieces of a text, whatever stands on either side of it. -/
theorem segments_append_sep {sep : Char} (hsep : p sep = true) (a b : List Char) :
    segments p (a ++ sep :: b) = segments p a ++ segments p b := by
  induction a with
  | nil => simp [segments, hsep]
  | cons c rest ih =>
    by_cases hc : p c = true
    · simp [segments, hc, ih]
    · obtain ⟨piece, pieces, hrest⟩ := List.exists_cons_of_ne_nil (segments_ne_nil p rest)
      simp [segments, hc, ih, hrest]

end Text

namespace Path

/-- What may be written behind the last segment of a path: slashes, some of them with a dot. -/
inductive IsIdle : List Char → Prop
  | nil : IsIdle []
  | slash {rest : List Char} (h : IsIdle rest) : IsIdle ('/' :: rest)
  | dot {rest : List Char} (h : IsIdle rest) : IsIdle ('/' :: '.' :: rest)

/-- A text that spells a path with the last segment `name`, below any folders. -/
structure EndsIn (name s : String) : Prop where
  ne_empty : name ≠ ""
  no_slash : '/' ∉ name.toList
  ne_dot : name ≠ "."
  spelling : ∃ folders idle, s.toList = folders ++ (name.toList ++ idle) ∧
    (folders = [] ∨ ∃ above, folders = above ++ ['/']) ∧ IsIdle idle

variable {name s : String}

theorem IsIdle.segments_eq {idle : List Char} (h : IsIdle idle) : ∃ pieces,
    Text.segments (· == '/') idle = [] :: pieces ∧
      ∀ piece ∈ pieces, piece = [] ∨ piece = ['.'] := by
  induction h with
  | nil => exact ⟨[], rfl, by simp⟩
  | slash h ih =>
    obtain ⟨pieces, hpieces, hidle⟩ := ih
    refine ⟨[] :: pieces, ?_, List.forall_mem_cons.2 ⟨.inl rfl, hidle⟩⟩
    rw [Text.segments, if_pos (beq_self_eq_true '/'), hpieces]
  | dot h ih =>
    obtain ⟨pieces, hpieces, hidle⟩ := ih
    refine ⟨['.'] :: pieces, ?_, List.forall_mem_cons.2 ⟨.inr rfl, hidle⟩⟩
    have hdot : ∀ c ∈ ['.'], (c == '/') = false := by simp
    rw [Text.segments, if_pos (beq_self_eq_true '/')]
    exact congrArg _ (Text.segments_append_of_forall hdot hpieces)

theorem EndsIn.split_eq (h : EndsIn name s) : ∃ above below,
    Text.split '/' s = above ++ name :: below ∧ ∀ piece ∈ below, piece = "" ∨ piece = "." := by
  obtain ⟨folders, idle, hs, hfolders, hidle⟩ := h.spelling
  obtain ⟨pieces, hpieces, hempty⟩ := hidle.segments_eq
  have hname : Text.segments (· == '/') (name.toList ++ idle) = name.toList :: pieces := by
    rw [Text.segments_append_of_forall (not_slash_of_notMem h.no_slash) hpieces, List.append_nil]
  have hbelow : ∀ piece ∈ pieces.map String.ofList, piece = "" ∨ piece = "." := by
    rw [List.forall_mem_map]
    intro piece hpiece
    exact (hempty piece hpiece).imp (congrArg String.ofList) (congrArg String.ofList)
  rw [Text.split, hs]
  rcases hfolders with rfl | ⟨above, rfl⟩
  · exact ⟨[], _, by simp [hname], hbelow⟩
  · refine ⟨(Text.segments (· == '/') above).map String.ofList, _, ?_, hbelow⟩
    have hcut := Text.segments_append_sep (p := (· == '/')) (beq_self_eq_true '/') above
      (name.toList ++ idle)
    rw [List.append_assoc, List.singleton_append, hcut, hname]
    simp

/-- The last segment of a path does not depend on how the path is spelled. -/
theorem EndsIn.name_ofString (h : EndsIn name s) : (ofString s).name = name := by
  obtain ⟨above, below, hsplit, hidle⟩ := h.split_eq
  have hbelow : below.filter (fun segment => segment != "" && segment != ".") = [] := by
    rw [List.filter_eq_nil_iff]
    rintro piece hpiece
    rcases hidle piece hpiece with rfl | rfl <;> decide
  have hname : (name != "" && name != ".") = true := by simp [h.ne_empty, h.ne_dot]
  rw [Path.name, ofString, hsplit]
  simp [List.filter_append, hname, hbelow]

/-- Nothing but slashes and dots has no last segment. -/
theorem eq_of_mem_of_name_eq_empty (h : (ofString s).name = "") {c : Char} (hc : c ∈ s.toList) :
    c = '/' ∨ c = '.' := by
  have hnone : (ofString s).segments = [] := by
    by_contra hne
    have hlast : (ofString s).name ∈ (ofString s).segments := by
      rw [Path.name, List.getLastD_eq_getLast?, List.getLast?_eq_some_getLast hne, Option.getD_some]
      exact List.getLast_mem hne
    rw [h, ofString, List.mem_filter] at hlast
    exact absurd hlast.2 (by decide)
  refine or_iff_not_imp_left.2 fun hslash => ?_
  rw [← Text.intercalate_segments '/' s.toList,
    exists_of_mem_intercalate (by simpa using hslash)] at hc
  obtain ⟨piece, hpiece, hc⟩ := hc
  have hidle := List.filter_eq_nil_iff.1 hnone (String.ofList piece) (List.mem_map_of_mem hpiece)
  have hcases : String.ofList piece = "" ∨ String.ofList piece = "." := by
    by_contra hkept
    exact hidle (by simpa [not_or] using hkept)
  rcases hcases with hempty | hdot
  · have hnil := congrArg String.toList hempty
    rw [String.toList_ofList] at hnil
    exact absurd (hnil ▸ hc : c ∈ "".toList) (by simp)
  · have hsingle := congrArg String.toList hdot
    rw [String.toList_ofList] at hsingle
    exact List.mem_singleton.1 (hsingle ▸ hc : c ∈ ".".toList)

end Path

end DartModels
