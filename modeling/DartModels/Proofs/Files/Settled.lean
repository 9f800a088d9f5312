import DartModels.Proofs.Files.Replacement

/-! # Writing again

Where a file has been written, it can be written again: its folder is there and it can be replaced.
A second write makes no folder and changes nothing but the content of the file.
-/

namespace DartModels.Files

variable {t s : Tree} {p target : Path} {d d' : Disk} {content : String} {check : Bool}

section Folders

variable {slashes : Nat} {segments : List String}

theorem isFolderAt_eq_true_iff :
    isFolderAt t p = true ↔
      (∃ folder, locate t p = .ok (.reached folder)) ∨
        ∃ folder name, locate t p = .ok (.named folder name) ∧
          find t folder name = .ok (some .folder) := by
  rw [isFolderAt, entryAt]
  cases hl : locate t p with
  | error fault => simp
  | ok spot =>
    cases spot with
    | reached folder => simp
    | named folder name =>
      cases hf : find t folder name with
      | error why => simp [hf]
      | ok found =>
        rcases found with _ | _ | _ <;> simp [hf]

theorem isFolderAt_of_keepsFolders (h : KeepsFolders t s) (hf : isFolderAt t p = true) :
    isFolderAt s p = true := by
  rw [isFolderAt_eq_true_iff] at hf ⊢
  rcases hf with ⟨folder, hl⟩ | ⟨folder, name, hl, hf⟩
  · exact .inl ⟨folder, locate_of_keepsFolders h hl⟩
  · refine .inr ⟨folder, name, locate_of_keepsFolders h hl, ?_⟩
    rw [find_of_find_ok hf, h _ (find_ok hf)]

theorem vacancy_of_isFolderAt (h : isFolderAt t p = true) :
    vacancy t p = .error (.refused .alreadyExists) := by
  rw [vacancy]
  rcases isFolderAt_eq_true_iff.1 h with ⟨folder, hl⟩ | ⟨folder, name, hl, hf⟩
  · rw [hl]
  · rw [hl]
    dsimp only
    rw [hf]

theorem isFolderAt_of_makeFolder (h : makeFolder d p = .ok d') : isFolderAt d'.tree p = true := by
  rw [makeFolder] at h
  cases hv : vacancy d.tree p with
  | error fault => simp [hv, Except.map] at h
  | ok place =>
    obtain rfl : d.become (d.tree.put place .folder) = d' := by simpa [hv, Except.map] using h
    obtain ⟨folder, name, hl, hf, rfl⟩ := vacancy_eq_ok_iff.1 hv
    have hne : folder ++ [name] ≠ [] := List.append_ne_nil_of_right_ne_nil _ (List.cons_ne_nil _ _)
    have hupdates := updates_put hne d.tree .folder
    have hvacant : d.tree.get? (folder ++ [name]) ≠ some .folder := by simp [find_ok hf]
    have hkeeps := hupdates.keepsFolders hvacant
    refine isFolderAt_eq_true_iff.2 (.inr ⟨folder, name, locate_of_keepsFolders hkeeps hl, ?_⟩)
    rw [find_of_find_ok hf]
    exact congrArg _ ((hupdates _).trans (if_pos rfl))

theorem isFolderAt_of_settle {fault : AccessFault} (h : settle d p fault = .ok ()) :
    isFolderAt d.tree p = true := by
  cases fault with
  | refused why =>
    simp only [settle] at h
    split at h
    · assumption
    · cases h
  | nulInPath => cases h

/-- Where folders have been ensured, there is a folder. -/
theorem isFolderAt_of_ensureFolder (hne : segments ≠ [])
    (h : ensureFolder slashes segments d = (.ok (), d')) :
    isFolderAt d'.tree ⟨slashes, segments.reverse⟩ = true := by
  cases segments with
  | nil => exact absurd rfl hne
  | cons segment above =>
    rw [ensureFolder] at h
    split at h
    · next e he =>
      obtain ⟨-, rfl⟩ := Prod.mk.inj h
      exact isFolderAt_of_makeFolder he
    · split at h
      · cases h
      · split at h
        · next f hf =>
          obtain ⟨-, rfl⟩ := Prod.mk.inj h
          exact isFolderAt_of_makeFolder hf
        · obtain ⟨hsettle, rfl⟩ := Prod.mk.inj h
          exact isFolderAt_of_settle hsettle
    · obtain ⟨hsettle, rfl⟩ := Prod.mk.inj h
      exact isFolderAt_of_settle hsettle

/-- Where there is a folder, ensuring it does nothing. -/
theorem ensureFolder_of_isFolderAt
    (h : segments ≠ [] → isFolderAt d.tree ⟨slashes, segments.reverse⟩ = true) :
    ensureFolder slashes segments d = (.ok (), d) := by
  cases segments with
  | nil => rfl
  | cons segment above =>
    have hfolder := h (List.cons_ne_nil _ _)
    rw [ensureFolder, makeFolder, vacancy_of_isFolderAt hfolder]
    simp only [Except.map, settle, if_pos hfolder]

end Folders

theorem replaceFile_eq_ok_iff {transfer : Transfer} :
    replaceFile target transfer d = (.ok (), d') ↔
      ∃ e place, ensureFolder target.slashes target.parent.segments.reverse d = (.ok (), e) ∧
        reserve e.tree target = .ok place ∧
        finish transfer (filled transfer e place) place target = .ok d' := by
  rw [replaceFile]
  constructor
  · intro h
    split at h
    · cases h
    · next e he =>
      cases hr : reserve e.tree target with
      | error fault => simp [hr] at h
      | ok place =>
        rw [hr] at h
        refine ⟨e, place, he, hr, ?_⟩
        dsimp only at h
        split at h
        · next f hf =>
          obtain ⟨-, rfl⟩ := Prod.mk.inj h
          exact hf
        · cases h
  · rintro ⟨e, place, he, hr, hf⟩
    rw [he]
    dsimp only
    rw [hr]
    dsimp only
    rw [filled] at hf
    rw [hf]

theorem write_eq_ok_iff :
    write target content check d = (.ok (), d') ↔
      (check = true → Dart.checkStructure content.toList = .ok ()) ∧
        replaceFile target (.whole content.toUTF8) d = (.ok (), d') := by
  rw [write, writeBy]
  cases hr : replaceFile target (.whole content.toUTF8) d with
  | mk result e =>
    cases check with
    | false => cases result <;> simp [Except.mapError]
    | true =>
      cases hc : Dart.checkStructure content.toList with
      | error fault => simp
      | ok => cases result <;> simp [Except.mapError]

/-- A path that leads to a file in a folder with room for a temporary file. -/
structure Settled (t : Tree) (target : Path) : Prop where
  folder : target.parent.segments ≠ [] → isFolderAt t target.parent = true
  room : ∃ place, reserve t target = .ok place
  file : ∃ content, readFile t target = some content

theorem Settled.of_keepsFolders (h : Settled t p) (hkeeps : KeepsFolders t s)
    (hfile : (s.content? p.place).isSome = true) : Settled s p where
  folder hne := isFolderAt_of_keepsFolders hkeeps (h.folder hne)
  room := by
    obtain ⟨place, hr⟩ := h.room
    exact exists_reserve_of_keepsFolders hkeeps hr
  file := by
    obtain ⟨content, hread⟩ := h.file
    rw [readFile_of_keepsFolders hkeeps hread]
    exact Option.isSome_iff_exists.1 hfile

theorem Settled.isSome_content? (h : Settled t p) : (t.content? p.place).isSome = true := by
  obtain ⟨content, hread⟩ := h.file
  rw [content?_of_readFile hread]
  rfl

/-- A path along which a file has been written is settled. -/
theorem settled_of_write (h : write target content check d = (.ok (), d')) :
    Settled d'.tree target := by
  obtain ⟨-, hreplaced⟩ := write_eq_ok_iff.1 h
  obtain ⟨e, place, he, hr, hf⟩ := replaceFile_eq_ok_iff.1 hreplaced
  obtain ⟨s, rfl, hupdates, hfolder, hread⟩ := finish_filled_ok (Transfer.whole_brings _) hr hf
  have hkeeps := hupdates.keepsFolders hfolder
  refine ⟨fun hne => ?_, exists_reserve_of_keepsFolders hkeeps hr, _, hread⟩
  have hparent := isFolderAt_of_ensureFolder (List.reverse_ne_nil_iff.2 hne) he
  rw [List.reverse_reverse] at hparent
  exact isFolderAt_of_keepsFolders hkeeps hparent

/-- Along a settled path anything that passes the check can be written, and it is all that
changes. -/
theorem Settled.exists_write (h : Settled d.tree target)
    (hcheck : check = true → Dart.checkStructure content.toList = .ok ()) :
    ∃ d', write target content check d = (.ok (), d') ∧
      Updates d.tree target.place (some (.file content.toUTF8)) d'.tree := by
  obtain ⟨place, hr⟩ := h.room
  obtain ⟨old, hread⟩ := h.file
  obtain ⟨folder, name, hl, hf⟩ := readFile_eq_some_iff.1 hread
  obtain ⟨hne, hn, -⟩ := reserve_ok hr
  have he : ensureFolder target.slashes target.parent.segments.reverse d = (.ok (), d) := by
    refine ensureFolder_of_isFolderAt fun hsegments => ?_
    rw [List.reverse_reverse]
    exact h.folder (List.reverse_ne_nil_iff.1 hsegments)
  have hfilled : Updates d.tree place _ (filled (.whole content.toUTF8) d place).tree :=
    (fill_steps hne _ .empty (d := d.become (d.tree.put place (.file .empty)))
      (updates_put hne d.tree _)).2
  have hreplaceable : replaceable (filled (.whole content.toUTF8) d place).tree target =
      .ok (folder ++ [name]) := by
    have hother : folder ++ [name] ≠ place := by
      rintro rfl
      cases hn.symm.trans (find_ok hf)
    refine replaceable_eq_ok_iff.2 ⟨folder, name, _, ?_, find_of_find_ok hf _, ?_, rfl⟩
    · exact locate_of_keepsFolders (hfilled.keepsFolders (hn ▸ nofun)) hl
    · rw [hfilled, if_neg hother, find_ok hf]
      exact nofun
  obtain ⟨d', hmove⟩ : ∃ d', moveTo (filled (.whole content.toUTF8) d place) place target =
      .ok d' := by
    rw [moveTo, hreplaceable]
    exact ⟨_, rfl⟩
  refine ⟨d', write_eq_ok_iff.2 ⟨hcheck, replaceFile_eq_ok_iff.2 ⟨d, place, he, hr, hmove⟩⟩, ?_⟩
  obtain ⟨s, rfl, hupdates, -⟩ := finish_filled_ok (Transfer.whole_brings _) hr hmove
  exact hupdates

section Shapes

theorem content?_eq_some_iff {q : Place} {content : ByteArray} :
    t.content? q = some content ↔ t.get? q = some (.file content) := by
  rw [Tree.content?]
  rcases t.get? q with _ | _ | _ <;> simp

/-- Trees with the same folders and with files at the same places. -/
def SameShape (t s : Tree) : Prop :=
  ∀ q, s.get? q = t.get? q ∨ (t.content? q).isSome = true ∧ (s.content? q).isSome = true

namespace SameShape

variable {u : Tree}

theorem refl (t : Tree) : SameShape t t :=
  fun _ => .inl rfl

theorem trans (h : SameShape t s) (h' : SameShape s u) : SameShape t u := by
  intro q
  rcases h q with he | ⟨ht, hs⟩
  · have hcontent : s.content? q = t.content? q := by rw [Tree.content?, he, Tree.content?]
    rw [← he, ← hcontent]
    exact h' q
  · rcases h' q with he | ⟨-, hu⟩
    · have hcontent : u.content? q = s.content? q := by rw [Tree.content?, he, Tree.content?]
      exact .inr ⟨ht, hcontent ▸ hs⟩
    · exact .inr ⟨ht, hu⟩

theorem of_updates {q : Place} {new : ByteArray} (ht : (t.content? q).isSome = true)
    (h : Updates t q (some (.file new)) s) : SameShape t s := by
  intro r
  by_cases hr : r = q
  · subst hr
    refine .inr ⟨ht, ?_⟩
    rw [content?_eq_some_iff.2 ((h r).trans (if_pos rfl))]
    rfl
  · exact .inl ((h r).trans (if_neg hr))

theorem keepsFolders (h : SameShape t s) : KeepsFolders t s := by
  intro q hq
  rcases h q with he | ⟨ht, -⟩
  · rw [he, hq]
  · rw [Tree.content?, hq] at ht
    cases ht

theorem isSome_content? (h : SameShape t s) {q : Place} (ht : (t.content? q).isSome = true) :
    (s.content? q).isSome = true := by
  rcases h q with he | ⟨-, hs⟩
  · rwa [Tree.content?, he, ← Tree.content?]
  · exact hs

/-- Trees of one shape with the same contents are the same. -/
theorem get?_eq (h : SameShape t s) (hcontent : ∀ q, s.content? q = t.content? q) (q : Place) :
    s.get? q = t.get? q := by
  rcases h q with he | ⟨ht, -⟩
  · exact he
  · obtain ⟨content, hold⟩ := Option.isSome_iff_exists.1 ht
    rw [content?_eq_some_iff.1 hold, ← content?_eq_some_iff, hcontent, hold]

end SameShape

end Shapes

end DartModels.Files
