import DartModels.Proofs.Generation.Warnings

/-! # Failures that no report tells

A report tells every failure but two: a number of too many digits in the input, and a file whose
path has a NUL character. A failure to read leaves the disk as it was.
-/

namespace DartModels

namespace Path

theorem hasNul_of_join {a b : Path} (h : (a.join b).HasNul) : a.HasNul ∨ b.HasNul := by
  rw [join] at h
  split at h
  · exact .inr h
  · obtain ⟨segment, hsegment, hnul⟩ := h
    rcases List.mem_append.1 hsegment with hmem | hmem
    · exact .inl ⟨segment, hmem, hnul⟩
    · exact .inr ⟨segment, hmem, hnul⟩

end Path

namespace Generation

open Files Model Schema

variable {d : Document} {o : Options} {command : String} {root : Path}

section Stops

variable {before after after' : Disk} {files done done' : List GeneratedFile}
  {stop? stop?' : Option Stop}

/-- Whether and why writing stops does not depend on anything else. -/
theorem Outcome.stop_unique (h : Outcome o root before files done stop? after)
    (h' : Outcome o root before files done' stop?' after') : stop? = stop?' := by
  induction files generalizing before done done' with
  | nil => rw [h.nil_cases, h'.nil_cases]
  | cons file rest ih =>
    rcases h.cons_cases with ⟨middle, more, hw, -, hmore⟩ | ⟨fault, hf, -, rfl⟩
    · rcases h'.cons_cases with ⟨middle', more', hw', -, hmore'⟩ | ⟨fault', hf', -, rfl⟩
      · obtain ⟨-, rfl⟩ := Prod.mk.inj (hw.symm.trans hw')
        exact ih hmore hmore'
      · cases hw.symm.trans hf'
    · rcases h'.cons_cases with ⟨middle', more', hw', -⟩ | ⟨fault', hf', -, rfl⟩
      · cases hf.symm.trans hw'
      · cases hf.symm.trans hf'
        rfl

theorem Outcome.stop_eq_none_iff (h : Outcome o root before files done stop? after) :
    stop? = none ↔ Written o root before files after := by
  constructor
  · rintro rfl
    cases h with
    | complete hw => exact hw
  · exact fun hw => h.stop_unique (.complete hw)

theorem Outcome.stop_ne_options {fault : Options.Fault}
    (h : Outcome o root before files done stop? after) : stop? ≠ some (.options fault) := by
  cases h with
  | complete => exact nofun
  | @stopped _ _ file _ _ why =>
    cases why with
    | code why => exact nofun
    | access why => cases why <;> exact nofun

/-- Below a folder without a NUL character, it is a file that has it. -/
theorem Outcome.exists_hasNul (hroot : ¬ root.HasNul)
    (h : Outcome o root before files done (some .nulInPath) after) :
    ∃ file ∈ files, file.path.HasNul := by
  generalize hstop : some Stop.nulInPath = stop? at h
  cases h with
  | complete => cases hstop
  | @stopped _ rest file _ _ fault hfiles hdone hf =>
    refine ⟨file, hfiles ▸ List.mem_append_right _ List.mem_cons_self, ?_⟩
    have hstop := Option.some.inj hstop
    cases fault with
    | code fault => cases hstop
    | access fault =>
      cases fault with
      | refused why => cases hstop
      | nulInPath => exact (Path.hasNul_of_join (hasNul_of_writeBy hf)).resolve_left hroot

end Stops

section Runs

variable {input : Input} {disk : Disk}

/-- What a run does with an input that it cannot read. -/
theorem run_unread {fault : Fault} (hread : input.read = .error fault) (o : Options)
    (command : String) (root : Path) (disk : Disk) :
    (run input o command root disk).disk = disk ∧
      (run input o command root disk).outcome =
        if fault = .tooManyDigits then .error .tooManyDigits
        else .ok ⟨[], some fault.message, []⟩ := by
  rw [run, hread]
  cases fault <;> exact ⟨rfl, rfl⟩

/-- With options of the declared types only writing can stop a run. -/
theorem exists_told_of_wellTyped (ho : o.WellTyped) {reading : Reading}
    (hread : input.read = .ok reading) (command : String) (root : Path) (disk : Disk) :
    ∃ done stop? p, Outcome o root disk (built input o command) done stop?
        (run input o command root disk).disk ∧
      Told p (verdict stop? none) (run input o command root disk).outcome := by
  obtain ⟨hdisk, htold⟩ := run_told hread o command root disk
  obtain ⟨done, stop?, houtcome, -, hr⟩ :=
    generate_outcome reading.document o command root disk
  rw [hr, fault_build ho] at htold
  rw [built, hread, hdisk]
  exact ⟨done, stop?, _, houtcome, htold⟩

/-- The crashes of a run whose options have the declared types. -/
theorem outcome_eq_error_iff (ho : o.WellTyped) {crash : Crash} :
    (run input o command root disk).outcome = .error crash ↔
      crash = .tooManyDigits ∧ input.read = .error .tooManyDigits ∨
        crash = .nulInPath ∧ ∃ done, Outcome o root disk (built input o command) done
          (some .nulInPath) (run input o command root disk).disk := by
  cases hread : input.read with
  | error fault =>
    have hnone : ¬ ∃ done, Outcome o root disk (built input o command) done (some .nulInPath)
        (run input o command root disk).disk := by
      rintro ⟨done, h⟩
      rw [built, hread] at h
      cases h.nil_cases
    rw [(run_unread hread o command root disk).2]
    by_cases hdigits : fault = .tooManyDigits
    · simp [hdigits, hnone, eq_comm]
    · simp [hdigits, hnone]
  | ok reading =>
    obtain ⟨done, stop?, p, houtcome, htold⟩ :=
      exists_told_of_wellTyped ho hread command root disk
    constructor
    · intro hcrash
      rw [hcrash] at htold
      cases stop? with
      | none => cases htold
      | some stop =>
        cases htold with
        | options => exact absurd rfl houtcome.stop_ne_options
        | nulInPath => exact .inr ⟨rfl, done, houtcome⟩
    · rintro (⟨-, hdigits⟩ | ⟨rfl, done', h⟩)
      · cases hdigits
      · obtain rfl := houtcome.stop_unique h
        exact htold.eq_of_nulInPath

end Runs

section Severed

theorem not_hasNul_out : ¬ Path.HasNul ⟨1, ["out"]⟩ := by
  rintro ⟨segment, hsegment, hnul⟩
  rw [List.mem_singleton.1 hsegment] at hnul
  exact absurd hnul (by decide)

/-- A definition whose name has a NUL character. -/
def severed : Definition :=
  ⟨"a\x00b", []⟩

def severedInput : Input :=
  .text "\x7b\"definitions\":\x7b\"a\\u0000b\":\x7b\x7d\x7d\x7d"

/-- A reading that holds that definition alone and left nothing out. -/
def isSevered : Except Fault Reading → Bool
  | .ok ⟨⟨[⟨name, []⟩]⟩, []⟩ => name = "a\x00b"
  | _ => false

theorem read_severedInput : severedInput.read = .ok ⟨⟨[severed]⟩, []⟩ := by
  have h : isSevered severedInput.read = true := by decide +kernel
  unfold isSevered at h
  split at h
  · next hread =>
    obtain rfl := of_decide_eq_true h
    exact hread
  · cases h

def severedAnalysis : Analysis :=
  .ofProperties ⟨[severed]⟩ {} severed.name severed.properties

theorem analyze_severed : analyze ⟨[severed]⟩ {} severed = .ok severedAnalysis := by rfl

theorem built_severed :
    built severedInput {} programName = [modelFileOf {} programName severedAnalysis] := by
  rw [built, read_severedInput]
  rfl

theorem checkStructure_severed :
    Dart.checkStructure (modelFileOf {} programName severedAnalysis).content.toList = .ok () := by
  have hcommand : '\n' ∉ programName.toList := by decide
  exact Dart.checkStructure_modelFile analyze_severed hcommand
    fun _ hpath => absurd hpath List.not_mem_nil

end Severed

end Generation

end DartModels
