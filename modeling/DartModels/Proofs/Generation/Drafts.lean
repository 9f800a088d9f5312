import DartModels.Generation.Draft
import DartModels.Proofs.Model.Analysis
import DartModels.Proofs.Path.Names

/-! # The files of a draft

What a draft of a document holds: for every definition that is kept, the file of each of its
enumerations and then the file of its model, and nothing else.
-/

namespace DartModels.Generation

open Model Naming Schema

theorem toList_fileName (o : Options) (stem : String) :
    (o.fileName stem).toList = stem.toList ++ '.' :: o.fileExtension.display.toList := by
  simp [Options.fileName, String.toList_append, toString]

theorem fileName_injective (o : Options) : Function.Injective o.fileName := by
  intro a b h
  have := congrArg String.toList h
  rw [toList_fileName, toList_fileName] at this
  exact String.toList_injective (List.append_cancel_right this)

theorem isName_fileName {o : Options} {stem : String}
    (hextension : '/' ∉ o.fileExtension.display.toList) (h : Path.IsName stem) :
    Path.IsName (o.fileName stem) := by
  have htext := toList_fileName o stem
  have hne : stem.toList ≠ [] := fun hnil => h.ne_empty (String.toList_injective hnil)
  constructor
  · rw [htext, List.mem_append, List.mem_cons]
    rintro (hslash | hslash | hslash)
    · exact h.no_slash hslash
    · exact absurd hslash (by decide)
    · exact hextension hslash
  · intro heq
    simp [heq] at htext
  · intro heq
    rw [heq] at htext
    cases hs : stem.toList with
    | nil => exact hne hs
    | cons c rest => simp [hs] at htext
  · -- a stem of one character would have to be the dot itself
    intro heq
    rw [heq] at htext
    cases hs : stem.toList with
    | nil => exact hne hs
    | cons c rest =>
      cases rest with
      | nil =>
        have hdot : '.' = c := (List.cons.inj (hs ▸ htext : ['.', '.'] = c :: _)).1
        subst hdot
        exact h.ne_dot (String.toList_injective hs)
      | cons => simp [hs] at htext

theorem keptDefinitions_eq (o : Options) (definitions : List Definition) :
    keptDefinitions o definitions = keep (fun A => o.ignoresClass A.name) definitions := by
  induction definitions with
  | nil => rfl
  | cons A rest ih =>
    rw [keptDefinitions, keep, ih]
    cases o.ignoresClass A.name <;> rfl

theorem mem_keptDefinitions {o : Options} {definitions kept : List Definition}
    (h : keptDefinitions o definitions = .ok kept) (A : Definition) :
    A ∈ kept ↔ A ∈ definitions ∧ o.ignoresClass A.name = .ok false := by
  rw [keptDefinitions_eq, keep_eq_ok_iff] at h
  simp [h.2]

/-- The drafts of several definitions, one after the other. -/
def draftEach (d : Document) (o : Options) (command : String) : List Definition → Draft
  | [] => .empty
  | A :: rest => (draftDefinition d o command A).andThen (draftEach d o command rest)

variable {d : Document} {o : Options} {command : String}

theorem foldr_andThen (definitions : List Definition) :
    definitions.foldr (fun A draft => (draftDefinition d o command A).andThen draft) .empty =
      draftEach d o command definitions := by
  induction definitions with
  | nil => rfl
  | cons A rest ih => rw [List.foldr_cons, ih, draftEach]

theorem build_of_kept {kept : List Definition} (h : keptDefinitions o d.definitions = .ok kept) :
    build d o command = draftEach d o command kept := by
  rw [build, h]
  exact foldr_andThen kept

theorem keptDefinitions_of_build (h : (build d o command).fault? = none) :
    ∃ kept, keptDefinitions o d.definitions = .ok kept := by
  cases hkept : keptDefinitions o d.definitions with
  | ok kept => exact ⟨kept, rfl⟩
  | error fault =>
    rw [build, hkept] at h
    cases h

theorem Draft.fault_andThen {a b : Draft} (h : (a.andThen b).fault? = none) :
    a.fault? = none ∧ b.fault? = none := by
  unfold Draft.andThen at h
  cases ha : a.fault? with
  | none => simpa [ha] using h
  | some fault => simp [ha] at h

theorem Draft.files_andThen {a b : Draft} (h : a.fault? = none) :
    (a.andThen b).files = a.files ++ b.files := by
  simp [Draft.andThen, h]

theorem Draft.mem_files_andThen {a b : Draft} {f : GeneratedFile}
    (h : f ∈ (a.andThen b).files) : f ∈ a.files ∨ f ∈ b.files := by
  unfold Draft.andThen at h
  split at h
  · exact Or.inl h
  · exact List.mem_append.1 h

theorem exists_of_mem_draftEach {definitions : List Definition} {f : GeneratedFile}
    (h : f ∈ (draftEach d o command definitions).files) :
    ∃ A ∈ definitions, f ∈ (draftDefinition d o command A).files := by
  induction definitions with
  | nil => exact absurd h List.not_mem_nil
  | cons A rest ih =>
    rcases Draft.mem_files_andThen h with h | h
    · exact ⟨A, List.mem_cons_self, h⟩
    · obtain ⟨B, hB, hf⟩ := ih h
      exact ⟨B, List.mem_cons_of_mem A hB, hf⟩

/-- The files of several definitions, one definition after the other. -/
def filesOfEach (d : Document) (o : Options) (command : String) (definitions : List Definition) :
    List GeneratedFile :=
  definitions.flatMap fun A => (draftDefinition d o command A).files

theorem files_draftEach {definitions : List Definition}
    (h : (draftEach d o command definitions).fault? = none) :
    (draftEach d o command definitions).files = filesOfEach d o command definitions := by
  induction definitions with
  | nil => rfl
  | cons A rest ih =>
    obtain ⟨hA, hrest⟩ := Draft.fault_andThen h
    rw [draftEach, Draft.files_andThen hA, ih hrest, filesOfEach, filesOfEach, List.flatMap_cons]

theorem draftEach_complete {definitions : List Definition}
    (h : (draftEach d o command definitions).fault? = none) {A : Definition}
    (hA : A ∈ definitions) :
    (draftDefinition d o command A).fault? = none ∧
      ∀ f ∈ (draftDefinition d o command A).files,
        f ∈ (draftEach d o command definitions).files := by
  induction definitions with
  | nil => exact absurd hA List.not_mem_nil
  | cons B rest ih =>
    obtain ⟨hB, hrest⟩ := Draft.fault_andThen h
    rw [draftEach, Draft.files_andThen hB]
    rcases List.mem_cons.1 hA with rfl | hA
    · exact ⟨hB, fun f hf => List.mem_append_left _ hf⟩
    · exact ⟨(ih hrest hA).1, fun f hf => List.mem_append_right _ ((ih hrest hA).2 f hf)⟩

theorem mem_enumerationFiles {comment : String} {enumerations : List Enumeration}
    {files : List GeneratedFile} (h : enumerationFiles o comment enumerations = .ok files)
    (f : GeneratedFile) :
    f ∈ files ↔ ∃ e ∈ enumerations, enumerationPath o e.stem = .ok f.path ∧
      f.content = Dart.enumFile o comment e := by
  induction enumerations generalizing files with
  | nil =>
    cases h
    simp
  | cons e rest ih =>
    rw [enumerationFiles] at h
    cases hpath : enumerationPath o e.stem with
    | error fault => simp [hpath] at h
    | ok path =>
      cases hrest : enumerationFiles o comment rest with
      | error fault => simp [hpath, hrest, Except.map] at h
      | ok others =>
        simp only [hpath, hrest, Except.map, Except.ok.injEq] at h
        subst h
        rw [List.mem_cons, ih hrest, List.exists_mem_cons_iff, hpath, Except.ok.injEq]
        refine or_congr_left ?_
        cases f
        simp [eq_comm]

/-- The files of a model: those of its enumerations and its own. -/
theorem mem_filesOf {comment : String} {m : Model} {files : List GeneratedFile}
    (h : filesOf o comment m = .ok files) (f : GeneratedFile) :
    f ∈ files ↔
      (∃ e ∈ m.enumerations, enumerationPath o e.stem = .ok f.path ∧
        f.content = Dart.enumFile o comment e) ∨
      f = ⟨modelPath o m.stem, Dart.modelFile o comment m⟩ := by
  cases henums : enumerationFiles o comment m.enumerations with
  | error fault => simp [filesOf, henums, Except.map] at h
  | ok enums =>
    simp only [filesOf, henums, Except.map, Except.ok.injEq] at h
    subst h
    rw [List.mem_append, List.mem_singleton, mem_enumerationFiles henums]

/-- A draft that was not stopped holds the files of the definition's model. -/
theorem filesOf_of_draftDefinition {A : Definition} {a : Analysis} (ha : analyze d o A = .ok a)
    (h : (draftDefinition d o command A).fault? = none) :
    filesOf o (generationComment o command) a.model =
      .ok (draftDefinition d o command A).files := by
  rw [draftDefinition, ha] at h ⊢
  cases hfiles : filesOf o (generationComment o command) a.model with
  | ok files => simp [hfiles]
  | error fault => simp [hfiles] at h

/-- The file of the model that an analysis has made. -/
def modelFileOf (o : Options) (command : String) (a : Analysis) : GeneratedFile where
  path := modelPath o a.model.stem
  content := Dart.modelFile o (generationComment o command) a.model

theorem path_modelFileOf {A : Definition} {a : Analysis} (ha : analyze d o A = .ok a) :
    (modelFileOf o command a).path = modelPath o (fileStem A.name) := by
  rw [modelFileOf, stem_of_analyze ha]

/-- The files of a definition end with its model. -/
theorem exists_files_eq {A : Definition} {a : Analysis} (ha : analyze d o A = .ok a)
    (h : (draftDefinition d o command A).fault? = none) :
    ∃ enums, (draftDefinition d o command A).files = enums ++ [modelFileOf o command a] := by
  have hfiles := filesOf_of_draftDefinition ha h
  rw [filesOf] at hfiles
  cases henums : enumerationFiles o (generationComment o command) a.model.enumerations with
  | error fault => simp [henums, Except.map] at hfiles
  | ok enums =>
    rw [henums] at hfiles
    exact ⟨enums, (Except.ok.inj hfiles).symm⟩

theorem exists_analysis_of_fault_none {A : Definition}
    (h : (draftDefinition d o command A).fault? = none) : ∃ a, analyze d o A = .ok a := by
  cases ha : analyze d o A with
  | ok a => exact ⟨a, rfl⟩
  | error fault => simp [draftDefinition, ha, Draft.failed] at h

theorem exists_analysis_of_mem {A : Definition} {f : GeneratedFile}
    (h : f ∈ (draftDefinition d o command A).files) :
    ∃ a files, analyze d o A = .ok a ∧
      filesOf o (generationComment o command) a.model = .ok files ∧ f ∈ files := by
  rw [draftDefinition] at h
  cases ha : analyze d o A with
  | error fault => simp [ha, Draft.failed] at h
  | ok a =>
    cases hfiles : filesOf o (generationComment o command) a.model with
    | error fault => simp [ha, hfiles] at h
    | ok files => exact ⟨a, files, rfl, hfiles, by simpa [ha, hfiles] using h⟩

/-- Every file that is built is one of a definition that is kept. -/
theorem exists_filesOf_of_mem_build {f : GeneratedFile} (h : f ∈ (build d o command).files) :
    ∃ A ∈ d.definitions, o.ignoresClass A.name = .ok false ∧ ∃ a files, analyze d o A = .ok a ∧
      filesOf o (generationComment o command) a.model = .ok files ∧ f ∈ files := by
  cases hkept : keptDefinitions o d.definitions with
  | error fault =>
    rw [build, hkept] at h
    exact absurd h List.not_mem_nil
  | ok kept =>
    rw [build_of_kept hkept] at h
    obtain ⟨A, hA, hf⟩ := exists_of_mem_draftEach h
    obtain ⟨hmem, hignored⟩ := (mem_keptDefinitions hkept A).1 hA
    exact ⟨A, hmem, hignored, exists_analysis_of_mem hf⟩

end DartModels.Generation
