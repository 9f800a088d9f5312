import DartModels.Proofs.Dart.StructuralCheck
import DartModels.Proofs.Generation.Writes

/-! # Collisions of files

Files of a run may have one place, and the last one written stays there. The model of a definition
can therefore only be lost to a file of a later definition, which for ordinary names must share its
stem.
-/

namespace DartModels.Generation

open Dart Files Model Naming Schema

variable {d : Document} {o : Options} {command : String} {root : Path}

section Order

variable {before after : List Definition} {A : Definition}

/-- In a build the files of later definitions come after a model, and all others before it. -/
theorem exists_build_files_eq (hkept : keptDefinitions o d.definitions = .ok (before ++ A :: after))
    (hbuilt : (build d o command).fault? = none) :
    ∃ a earlier, analyze d o A = .ok a ∧ (build d o command).files =
      earlier ++ modelFileOf o command a :: filesOfEach d o command after := by
  rw [build_of_kept hkept] at hbuilt ⊢
  obtain ⟨hfault, -⟩ := draftEach_complete hbuilt (List.mem_append_right _ List.mem_cons_self)
  obtain ⟨a, ha⟩ := exists_analysis_of_fault_none hfault
  obtain ⟨enums, henums⟩ := exists_files_eq ha hfault
  refine ⟨a, filesOfEach d o command before ++ enums, ha, ?_⟩
  rw [files_draftEach hbuilt, filesOfEach, List.flatMap_append, List.flatMap_cons, henums]
  simp [filesOfEach]

/-- Along the path of a model one reads the last later file of its place, or else the model. -/
theorem readFile_model {files earlier later : List GeneratedFile} {model : GeneratedFile}
    {start finish : Disk} (hfiles : files = earlier ++ model :: later)
    (h : Written o root start files finish) :
    readFile finish.tree (root.join model.path) =
      some ((lastAt root later (root.join model.path).place).getD model).content.toUTF8 := by
  have hmem : model ∈ files := hfiles ▸ List.mem_append_right _ List.mem_cons_self
  rw [h.readFile_eq_lastAt hmem (fun _ => id) fun _ => rfl, hfiles, lastAt_append, lastAt_cons,
    if_pos rfl]
  cases lastAt root later (root.join model.path).place <;> rfl

theorem content_getD_eq_iff {last : Option GeneratedFile} {model : GeneratedFile} :
    some (last.getD model).content.toUTF8 = some model.content.toUTF8 ↔
      ∀ file, last = some file → file.content = model.content := by
  cases last with
  | none => simp
  | some file => simp [String.toUTF8, String.toByteArray_inj]

end Order

section Names

/-- The stems, the folder and the extension in the paths of a document are ordinary names. -/
structure HasNames (d : Document) (o : Options) : Prop where
  extension : '/' ∉ o.fileExtension.display.toList
  folder : ∀ folder, o.enumsFolder = .str folder → Path.IsName folder
  definition : ∀ A ∈ d.definitions, Path.IsName (fileStem A.name)
  property : ∀ A ∈ d.definitions, ∀ p ∈ A.properties, Path.IsName (fileStem p.name)

/-- A definition with a file that is named like the model of another. -/
def SharesFile (d : Document) (o : Options) (A B : Definition) : Prop :=
  fileStem B.name = fileStem A.name ∨
    o.enumsFolder = .str (fileStem A.name) ∧ ∃ b, analyze d o B = .ok b ∧
      ∃ e ∈ b.model.enumerations, e.stem = fileStem A.name

theorem place_join_names {a b : String} (ha : Path.IsName a) (hb : Path.IsName b) :
    (root.join ((Path.ofString a).join (Path.ofString b))).place = root.place ++ [a, b] := by
  have hdots : ".." ∉ [a, b] := by simp [Ne.symm ha.ne_dots, Ne.symm hb.ne_dots]
  rw [Path.join_names ha hb]
  exact (Path.place_append root.slashes root.segments [a, b]).trans
    (Path.foldl_advance_of_notMem hdots _)

theorem HasNames.place_modelPath (h : HasNames d o) {A : Definition} (hA : A ∈ d.definitions) :
    (root.join (modelPath o (fileStem A.name))).place =
      root.place ++ [fileStem A.name, o.fileName (fileStem A.name)] :=
  place_join_names (h.definition A hA) (isName_fileName h.extension (h.definition A hA))

/-- Two files have one place only if they are named alike. -/
theorem HasNames.sharesFile (h : HasNames d o) {A B : Definition} (hA : A ∈ d.definitions)
    (hB : B ∈ d.definitions) {file : GeneratedFile}
    (hfile : file ∈ (draftDefinition d o command B).files)
    (hplace : (root.join (modelPath o (fileStem A.name))).place = (root.join file.path).place) :
    SharesFile d o A B := by
  obtain ⟨b, files, hb, hfiles, hmem⟩ := exists_analysis_of_mem hfile
  rw [h.place_modelPath hA] at hplace
  rcases (mem_filesOf hfiles file).1 hmem with ⟨e, he, hpath, -⟩ | hmodel
  · -- the folder of the enumerations stands where the other path has its stem
    obtain ⟨kept, hkept, rfl⟩ := analysis_eq hb
    obtain ⟨p, hp, values, rfl⟩ := exists_property_of_mem_enumerations he
    have hname := h.property B hB p ((mem_keptProperties hkept p).1 hp).1
    rw [Enumeration.stem_ofValues, enumerationPath] at hpath
    split at hpath
    · next folder hfolder =>
      rw [← Except.ok.inj hpath, place_join_names (h.folder folder hfolder)
        (isName_fileName h.extension hname)] at hplace
      obtain ⟨hstem, hsame⟩ := List.cons.inj (List.append_cancel_left hplace)
      refine .inr ⟨hstem ▸ hfolder, _, hb, _, he, ?_⟩
      rw [Enumeration.stem_ofValues]
      exact (fileName_injective o (List.cons.inj hsame).1).symm
    · cases hpath
  · have hpath : file.path = modelPath o (fileStem B.name) := by rw [hmodel, stem_of_analyze hb]
    rw [hpath, h.place_modelPath hB] at hplace
    exact .inl (List.cons.inj (List.append_cancel_left hplace)).1.symm

theorem mem_definitions_of_kept {kept : List Definition} {A : Definition}
    (hkept : keptDefinitions o d.definitions = .ok kept) (hA : A ∈ kept) : A ∈ d.definitions :=
  ((mem_keptDefinitions hkept A).1 hA).1

end Names

/-- After a run that succeeds, the file at the path of a model holds the model unless the last file
of a later definition with the same place has another content, and then it holds that. Among
ordinary names this takes a later definition with the same stem, or one with an enumeration of that
stem while the stem also names the folder of the enumerations. -/
theorem model_lost_only_to_later {before after : List Definition} {A : Definition} {t : Tree}
    (hkept : keptDefinitions o d.definitions = .ok (before ++ A :: after))
    (hrun : (generate d o command root (.ofTree t)).1 = .ok ()) :
    ∃ a, analyze d o A = .ok a ∧
      let model := modelFileOf o command a
      let last := lastAt root (filesOfEach d o command after) (root.join model.path).place
      let found := readFile (generate d o command root (.ofTree t)).2.disk.tree
        (root.join model.path)
      found = some (last.getD model).content.toUTF8 ∧
        (found = some model.content.toUTF8 ↔
          ∀ file, last = some file → file.content = model.content) ∧
        (HasNames d o → (∀ B ∈ after, ¬ SharesFile d o A B) →
          found = some model.content.toUTF8) := by
  obtain ⟨hbuilt, hw⟩ := written_of_generate_ok hrun
  obtain ⟨a, earlier, ha, hfiles⟩ := exists_build_files_eq hkept hbuilt
  have hfound := readFile_model hfiles hw
  refine ⟨a, ha, hfound, ?_, ?_⟩
  · rw [hfound]
    exact content_getD_eq_iff
  · intro hnames hshares
    rw [hfound, content_getD_eq_iff]
    intro file hlast
    obtain ⟨hafter, hplace⟩ := mem_of_lastAt hlast
    obtain ⟨B, hB, hmem⟩ := List.mem_flatMap.1 hafter
    rw [path_modelFileOf ha] at hplace
    have hin := fun C hC => mem_definitions_of_kept (A := C) hkept hC
    exact absurd (hnames.sharesFile (hin A (List.mem_append_right _ List.mem_cons_self))
      (hin B (List.mem_append_right _ (List.mem_cons_of_mem _ hB))) hmem hplace) (hshares B hB)

section Overlaid

/-- A definition with the stem that names the folder of the enumerations. -/
def overlaid : Definition :=
  ⟨"Enums", [⟨"size", .primitive (some "integer") ""⟩]⟩

/-- A definition with an enumeration of that stem. -/
def overlaying : Definition :=
  ⟨"Switch", [⟨"enums", .enumeration [.str "on"] false ""⟩]⟩

def overlay : Document where
  definitions := [overlaid, overlaying]

def overlaidAnalysis : Analysis :=
  .ofProperties overlay {} overlaid.name overlaid.properties

def overlayingAnalysis : Analysis :=
  .ofProperties overlay {} overlaying.name overlaying.properties

def overlayingEnumeration : Enumeration :=
  .ofValues "enums" [.str "on"]

def overlayingFile : GeneratedFile where
  path := (Path.ofString "enums").join
    (Path.ofString (Options.fileName {} overlayingEnumeration.stem))
  content := enumFile {} (generationComment {} programName) overlayingEnumeration

theorem analyze_overlaid : analyze overlay {} overlaid = .ok overlaidAnalysis := by rfl

theorem analyze_overlaying : analyze overlay {} overlaying = .ok overlayingAnalysis := by rfl

theorem files_overlay : (build overlay {} programName).files =
    [modelFileOf {} programName overlaidAnalysis, overlayingFile,
      modelFileOf {} programName overlayingAnalysis] := by rfl

theorem written_overlay : ∃ after, Written {} ⟨1, ["out"]⟩ (.ofTree ⟨[]⟩)
    [modelFileOf {} programName overlaidAnalysis, overlayingFile,
      modelFileOf {} programName overlayingAnalysis] after := by
  have hcommand : '\n' ∉ programName.toList := by decide
  have hmem : overlayingEnumeration ∈ overlayingAnalysis.model.enumerations :=
    mem_enumerations "Switch" List.mem_cons_self List.mem_cons_self
  have hscalar : ∀ m ∈ overlayingEnumeration.members, m.literal.isScalar = true := by
    simp [overlayingEnumeration, Enumeration.ofValues, Json.isScalar]
  have himports : overlayingAnalysis.model.imports = ["../enums/enums.dart"] := by rfl
  refine ⟨_, .of_checked ?_ (by decide +kernel) (.of_checked ?_ (by decide +kernel)
    (.of_checked ?_ (by decide +kernel) .nil))⟩
  · exact checkStructure_modelFile analyze_overlaid hcommand
      fun _ hpath => absurd hpath List.not_mem_nil
  · exact checkStructure_enumFile analyze_overlaying hcommand hmem hscalar
  · refine checkStructure_modelFile analyze_overlaying hcommand ?_
    rw [himports]
    exact List.forall_mem_singleton.2 (turns_importLine (by decide) [])

theorem generate_overlay :
    (generate overlay {} programName ⟨1, ["out"]⟩ (.ofTree ⟨[]⟩)).1 = .ok () := by
  obtain ⟨after, hw⟩ := written_overlay
  exact generate_ok_of_written rfl (files_overlay ▸ hw)

theorem hasNames_overlay : HasNames overlay {} where
  extension := by decide
  folder := by
    rintro folder ⟨⟩
    decide
  definition := by decide
  property := by decide

/-- The later of the two definitions keeps its model. -/
theorem model_lost_only_to_later_overlay :
    (generate overlay {} programName ⟨1, ["out"]⟩ (.ofTree ⟨[]⟩)).1 = .ok () ∧
      ∃ a, analyze overlay {} overlaying = .ok a ∧
        readFile (generate overlay {} programName ⟨1, ["out"]⟩ (.ofTree ⟨[]⟩)).2.disk.tree
            (Path.join ⟨1, ["out"]⟩ (modelFileOf {} programName a).path) =
          some (modelFileOf {} programName a).content.toUTF8 := by
  have hkept : keptDefinitions {} overlay.definitions = .ok ([overlaid] ++ overlaying :: []) := by
    rfl
  obtain ⟨a, ha, -, -, hfound⟩ := model_lost_only_to_later hkept generate_overlay
  exact ⟨generate_overlay, a, ha, hfound hasNames_overlay fun _ hB => absurd hB List.not_mem_nil⟩

theorem path_overlayingFile : overlayingFile.path = ⟨0, ["enums", "enums.dart"]⟩ := by
  decide

theorem path_overlaid :
    (modelFileOf {} programName overlaidAnalysis).path = ⟨0, ["enums", "enums.dart"]⟩ := by
  rw [path_modelFileOf analyze_overlaid]
  decide

theorem content_overlayingFile :
    overlayingFile.content ≠ (modelFileOf {} programName overlaidAnalysis).content := by
  decide

/-- The model of the earlier one is lost to the enumeration. -/
theorem overlaid_model_lost :
    keptDefinitions {} overlay.definitions = .ok [overlaid, overlaying] ∧
      (generate overlay {} programName ⟨1, ["out"]⟩ (.ofTree ⟨[]⟩)).1 = .ok () ∧
      analyze overlay {} overlaid = .ok overlaidAnalysis ∧
      readFile (generate overlay {} programName ⟨1, ["out"]⟩ (.ofTree ⟨[]⟩)).2.disk.tree
          (Path.join ⟨1, ["out"]⟩ (modelFileOf {} programName overlaidAnalysis).path) ≠
        some (modelFileOf {} programName overlaidAnalysis).content.toUTF8 := by
  refine ⟨rfl, generate_overlay, analyze_overlaid, ?_⟩
  have hplace : (Path.join ⟨1, ["out"]⟩ overlayingFile.path).place =
      (Path.join ⟨1, ["out"]⟩ (modelFileOf {} programName overlaidAnalysis).path).place := by
    rw [path_overlayingFile, path_overlaid]
  have hother : (Path.join ⟨1, ["out"]⟩ (modelFileOf {} programName overlaidAnalysis).path).place ≠
      (Path.join ⟨1, ["out"]⟩ (modelFileOf {} programName overlayingAnalysis).path).place := by
    decide
  have hlast : lastAt ⟨1, ["out"]⟩
      [overlayingFile, modelFileOf {} programName overlayingAnalysis]
      (Path.join ⟨1, ["out"]⟩ (modelFileOf {} programName overlaidAnalysis).path).place =
        some overlayingFile := by
    rw [lastAt_cons, if_pos hplace.symm, lastAt_eq_none (List.forall_mem_singleton.2 hother)]
    rfl
  obtain ⟨-, hw⟩ := written_of_generate_ok generate_overlay
  have hfiles := files_overlay.trans (List.nil_append _).symm
  rw [readFile_model hfiles hw, hlast, Ne, content_getD_eq_iff]
  exact fun h => content_overlayingFile (h overlayingFile rfl)

end Overlaid

end DartModels.Generation
