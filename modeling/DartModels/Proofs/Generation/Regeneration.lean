import DartModels.Proofs.Files.Settled
import DartModels.Proofs.Generation.Collisions

/-! # Generating again

A run that succeeds leaves every path that it wrote settled. The same run over the tree it left
succeeds once more. On the way files that share a place are overwritten as before, and in the end
the last of them has won again, so the tree is the same.
-/

namespace DartModels.Generation

open Dart Files Schema

variable {d : Document} {o : Options} {command : String} {root : Path}
variable {before after : Disk} {files : List GeneratedFile}

theorem Written.unique {other : Disk} (h : Written o root before files after)
    (h' : Written o root before files other) : after = other := by
  induction h with
  | nil =>
    cases h'
    rfl
  | cons hw _ ih =>
    cases h' with
    | cons hw' hrest =>
      obtain ⟨-, rfl⟩ := Prod.mk.inj (hw.symm.trans hw')
      exact ih hrest

/-- A file that is there stays there, with whatever content. -/
theorem Written.isSome_content? (h : Written o root before files after) {q : Place}
    (hq : (before.tree.content? q).isSome = true) : (after.tree.content? q).isSome = true := by
  rw [h.content?_eq]
  cases lastAt root files q with
  | none => exact hq
  | some file => rfl

/-- After a run all paths that it wrote are settled, and all files have passed the check. -/
theorem Written.settled (h : Written o root before files after) :
    ∀ file ∈ files, Settled after.tree (root.join file.path) ∧
      (o.validate.holds = true → checkStructure file.content.toList = .ok ()) := by
  induction h with
  | nil => exact fun _ hfile => absurd hfile List.not_mem_nil
  | @cons file rest before middle after hw hrest ih =>
    intro other hother
    rcases List.mem_cons.1 hother with rfl | hother
    · have hsettled := settled_of_write hw
      have hfile := hrest.isSome_content? hsettled.isSome_content?
      exact ⟨hsettled.of_keepsFolders hrest.keepsFolders hfile, (write_eq_ok_iff.1 hw).1⟩
    · exact ih other hother

/-- Along settled paths all files can be written, and the shape of the tree stays. -/
theorem exists_written_of_settled (before : Disk)
    (h : ∀ file ∈ files, Settled before.tree (root.join file.path) ∧
      (o.validate.holds = true → checkStructure file.content.toList = .ok ())) :
    ∃ after, Written o root before files after ∧ SameShape before.tree after.tree := by
  induction files generalizing before with
  | nil => exact ⟨before, .nil, .refl _⟩
  | cons file rest ih =>
    obtain ⟨⟨hsettled, hcheck⟩, hrest⟩ := List.forall_mem_cons.1 h
    obtain ⟨middle, hw, hupdates⟩ := hsettled.exists_write hcheck
    have hshape : SameShape before.tree middle.tree :=
      .of_updates hsettled.isSome_content? hupdates
    obtain ⟨after, hafter, hshape'⟩ := ih middle fun other hother => by
      obtain ⟨hother, hcheck⟩ := hrest other hother
      have hfile := hshape.isSome_content? hother.isSome_content?
      exact ⟨hother.of_keepsFolders hshape.keepsFolders hfile, hcheck⟩
    exact ⟨after, .cons hw hafter, hshape.trans hshape'⟩

/-- Writing the same files again leaves the tree as it is. -/
theorem Written.again (h : Written o root before files after) :
    ∃ final, Written o root (.ofTree after.tree) files final ∧
      ∀ q, final.tree.get? q = after.tree.get? q := by
  obtain ⟨final, hfinal, hshape⟩ :=
    exists_written_of_settled (.ofTree after.tree) h.settled
  refine ⟨final, hfinal, hshape.get?_eq fun q => ?_⟩
  have hfirst := h.content?_eq q
  rw [hfinal.content?_eq]
  change _ = after.tree.content? q
  cases hlast : lastAt root files q with
  | none => rfl
  | some file => simp [hfirst, hlast]

theorem written_eq_of_generate_ok {disk : Disk} (h : (generate d o command root disk).1 = .ok ()) :
    (generate d o command root disk).2.written = addPaths root (build d o command).files [] := by
  obtain ⟨done, stop?, ho, hwritten, hr⟩ := generate_outcome d o command root disk
  rw [h] at hr
  cases ho with
  | complete => exact hwritten
  | stopped => cases hr

/-- After a run that succeeds, the same run over the tree that it left succeeds too, lists the same
paths, and leaves every file and every folder as they are. -/
theorem regeneration_idempotent {t : Tree}
    (h : (generate d o command root (.ofTree t)).1 = .ok ()) :
    let first := (generate d o command root (.ofTree t)).2
    let again := generate d o command root (.ofTree first.disk.tree)
    again.1 = .ok () ∧ again.2.written = first.written ∧
      ∀ q, again.2.disk.tree.get? q = first.disk.tree.get? q := by
  intro first again
  obtain ⟨hbuilt, hw⟩ := written_of_generate_ok h
  obtain ⟨final, hfinal, hsame⟩ := hw.again
  have hagain : again.1 = .ok () := generate_ok_of_written hbuilt hfinal
  have hwritten : again.2.written = first.written :=
    (written_eq_of_generate_ok hagain).trans (written_eq_of_generate_ok h).symm
  refine ⟨hagain, hwritten, ?_⟩
  have hdisk := (written_of_generate_ok hagain).2.unique hfinal
  rw [hdisk]
  exact hsame

/-- Two files of one place, of which the second wins both times. -/
theorem regeneration_idempotent_overlay :
    let first := (generate overlay {} programName ⟨1, ["out"]⟩ (.ofTree ⟨[]⟩)).2
    let again := generate overlay {} programName ⟨1, ["out"]⟩ (.ofTree first.disk.tree)
    (generate overlay {} programName ⟨1, ["out"]⟩ (.ofTree ⟨[]⟩)).1 = .ok () ∧
      again.1 = .ok () ∧ ∀ q, again.2.disk.tree.get? q = first.disk.tree.get? q := by
  obtain ⟨hagain, -, hsame⟩ := regeneration_idempotent generate_overlay
  exact ⟨generate_overlay, hagain, hsame⟩

end DartModels.Generation
