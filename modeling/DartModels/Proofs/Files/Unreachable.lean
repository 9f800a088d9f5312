import DartModels.Proofs.Files.Places
import DartModels.Proofs.Text.Lines

/-! # Paths with a NUL character

Only a NUL character in the text of a path keeps it from every operation. A write touches no other
paths than those made of its target's names, so it can meet such a path only if the target is one.
-/

namespace DartModels

namespace Path

/-- A NUL character in one of the segments of a path. -/
def HasNul (p : Path) : Prop :=
  ∃ segment ∈ p.segments, '\x00' ∈ segment.toList

theorem nul_mem_text_iff (p : Path) : '\x00' ∈ p.text.toList ↔ p.HasNul := by
  have h : '\x00' ∈ ("/".intercalate p.segments).toList ↔ p.HasNul := by
    rw [String.toList_intercalate, exists_of_mem_intercalate (by decide)]
    simp [HasNul]
  unfold text
  split
  · next hempty =>
    have hs : p.segments = [] := by simp_all
    simp [HasNul, hs]
  · rw [String.toList_append, List.mem_append, String.toList_ofList, h]
    simp

end Path

namespace Files

variable {t : Tree} {p : Path}

theorem hasNul_of_locate (h : locate t p = .error .nulInPath) : p.HasNul := by
  unfold locate at h
  split at h
  · next hn => exact p.nul_mem_text_iff.1 (List.contains_iff_mem.1 hn)
  · split at h
    · cases h
    · cases hl : locateSegments t p.segments <;> simp [hl, Except.mapError] at h

theorem hasNul_of_vacancy (h : vacancy t p = .error .nulInPath) : p.HasNul := by
  unfold vacancy at h
  split at h
  · next hl => exact hasNul_of_locate (hl.trans (congrArg _ (Except.error.inj h)))
  · cases h
  · split at h <;> cases h

theorem hasNul_of_replaceable (h : replaceable t p = .error .nulInPath) : p.HasNul := by
  unfold replaceable at h
  split at h
  · next hl => exact hasNul_of_locate (hl.trans (congrArg _ (Except.error.inj h)))
  · cases h
  · split at h <;> cases h

theorem hasNul_of_makeFolder {d : Disk} (h : makeFolder d p = .error .nulInPath) : p.HasNul := by
  rw [makeFolder] at h
  cases hv : vacancy d.tree p with
  | ok place => simp [hv, Except.map] at h
  | error fault =>
    obtain rfl : fault = .nulInPath := by simpa [hv, Except.map] using h
    exact hasNul_of_vacancy hv

theorem hasNul_of_moveTo {d : Disk} {source : Place}
    (h : moveTo d source p = .error .nulInPath) : p.HasNul := by
  rw [moveTo] at h
  cases hr : replaceable d.tree p with
  | ok place => simp [hr, Except.map] at h
  | error fault =>
    obtain rfl : fault = .nulInPath := by simpa [hr, Except.map] using h
    exact hasNul_of_replaceable hr

theorem settle_nul {d : Disk} {fault : AccessFault} (h : settle d p fault = .error .nulInPath) :
    fault = .nulInPath := by
  cases fault with
  | refused why => simp only [settle] at h; split at h <;> cases h
  | nulInPath => rfl

theorem hasNul_of_ensureFolder {slashes : Nat} {segments : List String} {d d' : Disk}
    (h : ensureFolder slashes segments d = (.error .nulInPath, d')) :
    Path.HasNul ⟨slashes, segments⟩ := by
  induction segments generalizing d d' with
  | nil => cases h
  | cons segment above ih =>
    have hreversed {e : Disk}
        (he : makeFolder e ⟨slashes, (segment :: above).reverse⟩ = .error .nulInPath) :
        Path.HasNul ⟨slashes, segment :: above⟩ := by
      simpa [Path.HasNul, or_comm] using hasNul_of_makeFolder he
    rw [ensureFolder] at h
    split at h
    · cases h
    · split at h
      · next fault e habove =>
        obtain ⟨hfault, -⟩ := Prod.mk.inj h
        obtain rfl := Except.error.inj hfault
        obtain ⟨s, hs, hn⟩ := ih habove
        exact ⟨s, List.mem_cons_of_mem _ hs, hn⟩
      · split at h
        · cases h
        · next fault hf =>
          obtain rfl := settle_nul (congrArg Prod.fst h)
          exact hreversed hf
    · next fault _ hf =>
      obtain rfl := settle_nul (congrArg Prod.fst h)
      exact hreversed hf

theorem nul_notMem_serial (n : Nat) : '\x00' ∉ (serial n).toList := by
  intro h
  rw [serial, String.toList_ofList, List.mem_append] at h
  rcases h with h | h
  · exact absurd (List.mem_replicate.1 h).2 (by decide)
  · rw [Nat.toList_repr] at h
    exact absurd (Nat.isDigit_of_mem_toDigits (by decide) (by decide) h) (by decide)

theorem nul_mem_temporaryName {name : String} {n : Nat}
    (h : '\x00' ∈ (temporaryName name n).toList) : '\x00' ∈ name.toList := by
  have hs := nul_notMem_serial n
  simpa [temporaryName, toString, hs] using h

theorem hasNul_of_temporaryPath {target : Path} {n : Nat} (h : (temporaryPath target n).HasNul) :
    target.HasNul := by
  obtain ⟨s, hs, hn⟩ := h
  rcases List.mem_append.1 hs with hs | hs
  · rcases Path.mem_of_mem_foldl_advance hs with hs | hs
    · cases hs
    · exact ⟨s, List.mem_of_mem_dropLast hs, hn⟩
  · rw [List.mem_singleton.1 hs] at hn
    have hname := nul_mem_temporaryName hn
    obtain ⟨slashes, segments⟩ := target
    obtain rfl | ⟨init, last, rfl⟩ := List.eq_nil_or_concat' segments
    · cases hname
    · refine ⟨last, List.mem_append_right _ List.mem_cons_self, ?_⟩
      simpa [Path.name] using hname

theorem hasNul_of_reserve {target : Path} (h : reserve t target = .error .nulInPath) :
    target.HasNul := by
  unfold reserve at h
  split at h
  · next hl =>
    exact hasNul_of_temporaryPath (hasNul_of_locate (hl.trans (congrArg _ (Except.error.inj h))))
  · cases h
  · split at h <;> cases h

theorem hasNul_of_finish {transfer : Transfer} {place : Place} {d : Disk}
    (h : finish transfer d place p = .error .nulInPath) : p.HasNul := by
  unfold finish at h
  split at h
  · cases h
  · exact hasNul_of_moveTo h

theorem hasNul_of_replaceFile {target : Path} {transfer : Transfer} {d d' : Disk}
    (h : replaceFile target transfer d = (.error .nulInPath, d')) : target.HasNul := by
  unfold replaceFile at h
  split at h
  · next fault e he =>
    obtain ⟨hfault, -⟩ := Prod.mk.inj h
    obtain rfl := Except.error.inj hfault
    obtain ⟨s, hs, hn⟩ := hasNul_of_ensureFolder he
    exact ⟨s, List.mem_of_mem_dropLast (List.mem_reverse.1 hs), hn⟩
  · split at h
    · next fault hv =>
      obtain ⟨hfault, -⟩ := Prod.mk.inj h
      obtain rfl := Except.error.inj hfault
      exact hasNul_of_reserve hv
    · dsimp only at h
      split at h
      · cases h
      · next fault hm =>
        obtain ⟨hfault, -⟩ := Prod.mk.inj h
        obtain rfl := Except.error.inj hfault
        exact hasNul_of_finish hm

/-- A write that meets a NUL character was given it in its target. -/
theorem hasNul_of_writeBy {transfer : Transfer} {target : Path} {content : String}
    {check : Bool} {d d' : Disk}
    (h : writeBy transfer target content check d = (.error (.access .nulInPath), d')) :
    target.HasNul := by
  unfold writeBy at h
  split at h
  · cases h
  · cases hr : replaceFile target transfer d with
    | mk result e =>
      rw [hr] at h
      cases result with
      | ok _ => cases h
      | error fault =>
        obtain rfl : fault = .nulInPath := by
          simpa [Except.mapError] using congrArg Prod.fst h
        exact hasNul_of_replaceFile hr

end Files

end DartModels
