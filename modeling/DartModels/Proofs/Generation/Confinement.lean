import DartModels.Proofs.Dart.StructuralCheck
import DartModels.Proofs.Generation.Writes
import DartModels.Proofs.Path.Confinement

/-! # Files below the output folder

Files are named for the stems of definitions and properties, and stems may hold slashes and dots. A
run stays below its output folder if no stem climbs out of it, and only then whatever the folder is.
-/

namespace DartModels.Generation

open Dart Files Model Naming Schema

variable {d : Document} {o : Options} {command : String} {root : Path}

theorem fileName_of_dart (hextension : o.fileExtension = .str "dart") (stem : String) :
    o.fileName stem = stem ++ ".dart" := by
  have hdot : ('.' :: "dart".toList) = ".dart".toList := rfl
  apply String.toList_injective
  rw [toList_fileName, hextension, Json.display, String.toList_append, hdot]

theorem forall_below_modelPath_iff (hextension : o.fileExtension = .str "dart") (stem : String) :
    (∀ root : Path, Path.Below root (root.join (modelPath o stem))) ↔
      Path.Stays 0 (Path.ofString stem) := by
  rw [Path.forall_below_join_iff, modelPath, fileName_of_dart hextension]
  exact Path.isInner_join_self_iff (by decide) (by decide)

theorem forall_below_enumerationPath_iff (hextension : o.fileExtension = .str "dart")
    (hfolder : o.enumsFolder = .str "enums") {stem : String} {path : Path}
    (h : enumerationPath o stem = .ok path) :
    (∀ root : Path, Path.Below root (root.join path)) ↔
      Path.Stays 1 (Path.ofString (o.fileName stem)) := by
  rw [enumerationPath, hfolder] at h
  rw [Path.forall_below_join_iff, ← Except.ok.inj h, fileName_of_dart hextension]
  exact Path.isInner_join_name_iff (by decide) (by decide) (by decide)

/-- The names from which the files of a definition that is kept are named lead into the root. -/
def StemsStay (d : Document) (o : Options) : Prop :=
  ∀ A ∈ d.definitions, o.ignoresClass A.name = .ok false → ∀ a, analyze d o A = .ok a →
    Path.Stays 0 (Path.ofString a.model.stem) ∧
      ∀ e ∈ a.model.enumerations, Path.Stays 1 (Path.ofString (o.fileName e.stem))

theorem below_of_mem_build (hextension : o.fileExtension = .str "dart")
    (hfolder : o.enumsFolder = .str "enums") (hstems : StemsStay d o) {f : GeneratedFile}
    (hf : f ∈ (build d o command).files) (root : Path) : Path.Below root (root.join f.path) := by
  obtain ⟨A, hA, hkept, a, files, ha, hfiles, hmem⟩ := exists_filesOf_of_mem_build hf
  obtain ⟨hmodel, henums⟩ := hstems A hA hkept a ha
  rcases (mem_filesOf hfiles f).1 hmem with ⟨e, he, hpath, -⟩ | rfl
  · exact (forall_below_enumerationPath_iff hextension hfolder hpath).2 (henums e he) root
  · exact (forall_below_modelPath_iff hextension a.model.stem).2 hmodel root

/-- With the usual folder and extension, a model is below every output folder if and only if the
stem of its definition does not climb above its start, and an enumeration if and only if the stem
of its property climbs one step at most. Unless a stem climbs further, a run writes strictly below
its output folder and leaves every file elsewhere as it was. -/
theorem output_confinement (d : Document) (o : Options) (command : String)
    (hextension : o.fileExtension = .str "dart") (hfolder : o.enumsFolder = .str "enums") :
    (∀ stem, (∀ root : Path, Path.Below root (root.join (modelPath o stem))) ↔
      Path.Stays 0 (Path.ofString stem)) ∧
    (∀ stem path, enumerationPath o stem = .ok path →
      ((∀ root : Path, Path.Below root (root.join path)) ↔
        Path.Stays 1 (Path.ofString (o.fileName stem)))) ∧
    (StemsStay d o → ∀ root t,
      let r := generate d o command root (.ofTree t)
      (∀ p ∈ r.2.written, Path.Below root p) ∧
        ∀ q, ¬ Path.PlaceBelow root.place q → r.2.disk.tree.content? q = t.content? q) := by
  refine ⟨forall_below_modelPath_iff hextension,
    fun stem path h => forall_below_enumerationPath_iff hextension hfolder h,
    fun hstems root t => ?_⟩
  intro r
  obtain ⟨done, stop?, ho, hwritten, -⟩ := generate_outcome d o command root (.ofTree t)
  have hbelow : ∀ file ∈ done, Path.Below root (root.join file.path) :=
    fun file hf => below_of_mem_build hextension hfolder hstems (ho.mem_files hf) root
  constructor
  · intro p hp
    have hpaths : r.2.written = (done.map fun file => root.join file.path).eraseDups :=
      hwritten.trans (addPaths_eraseDups [])
    rw [hpaths, List.mem_eraseDups] at hp
    obtain ⟨file, hf, rfl⟩ := List.mem_map.1 hp
    exact hbelow file hf
  · intro q hq
    have hnone : lastAt root done q = none := by
      refine lastAt_eq_none fun file hf => ?_
      rintro rfl
      exact hq (hbelow file hf)
    rw [ho.content?_eq, hnone]
    rfl

/-- Stems that are ordinary names stay. -/
theorem stemsStay_of_isName (hextension : '/' ∉ o.fileExtension.display.toList)
    (h : ∀ A ∈ d.definitions, Path.IsName (fileStem A.name) ∧
      ∀ p ∈ A.properties, Path.IsName (fileStem p.name)) : StemsStay d o := by
  intro A hA _ a ha
  obtain ⟨kept, hkept, rfl⟩ := analysis_eq ha
  obtain ⟨hname, hproperties⟩ := h A hA
  constructor
  · rw [Analysis.stem_ofProperties]
    exact hname.stays 0
  · intro e he
    obtain ⟨p, hp, values, rfl⟩ := exists_property_of_mem_enumerations he
    have hproperty := hproperties p ((mem_keptProperties hkept p).1 hp).1
    rw [Enumeration.stem_ofValues]
    exact (isName_fileName hextension hproperty).stays 1

/-- An ordinary definition with an ordinary enumeration. -/
def ordinary : Document where
  definitions := [⟨"UserAccount", [⟨"state", .enumeration [.str "on"] false ""⟩]⟩]

theorem output_confinement_ordinary :
    StemsStay ordinary {} ∧
      ∀ p ∈ (generate ordinary {} programName ⟨1, ["out"]⟩ (.ofTree ⟨[]⟩)).2.written,
        Path.Below ⟨1, ["out"]⟩ p := by
  have hstems : StemsStay ordinary {} :=
    stemsStay_of_isName (by decide +kernel) (by decide +kernel)
  exact ⟨hstems, ((output_confinement ordinary {} programName rfl rfl).2.2 hstems _ _).1⟩

section Escape

def escape : Document where
  definitions := [⟨"../escape", []⟩]

def escapeModel : DartModels.Model :=
  (Analysis.ofProperties escape {} "../escape" []).model

def escapeFile : GeneratedFile where
  path := modelPath {} escapeModel.stem
  content := modelFile {} (generationComment {} programName) escapeModel

theorem analyze_escape : analyze escape {} ⟨"../escape", []⟩ =
    .ok (.ofProperties escape {} "../escape" []) := by rfl

theorem build_escape : (build escape {} programName).files = [escapeFile] := by rfl

theorem write_escapeFile :
    (write (Path.join ⟨1, ["out"]⟩ escapeFile.path) escapeFile.content true
      (.ofTree ⟨[]⟩)).1 = .ok () := by
  have hcommand : '\n' ∉ programName.toList := by decide
  have hcheck : checkStructure escapeFile.content.toList = .ok () :=
    checkStructure_modelFile analyze_escape hcommand fun _ hpath => absurd hpath List.not_mem_nil
  rw [write, writeBy, if_pos rfl, hcheck]
  decide +kernel

/-- A definition whose name climbs puts its model beside the output folder. -/
theorem escape_not_below :
    ∃ p ∈ (generate escape {} programName ⟨1, ["out"]⟩ (.ofTree ⟨[]⟩)).2.written,
      ¬ Path.Below ⟨1, ["out"]⟩ p := by
  obtain ⟨done, stop?, ho, hwritten, -⟩ :=
    generate_outcome escape {} programName ⟨1, ["out"]⟩ (.ofTree ⟨[]⟩)
  rw [build_escape] at ho
  obtain ⟨_, more, rfl, -⟩ := ho.exists_done_cons write_escapeFile
  refine ⟨Path.join ⟨1, ["out"]⟩ escapeFile.path, ?_, ?_⟩
  · rw [hwritten.trans (addPaths_eraseDups []), List.mem_eraseDups]
    exact List.mem_cons_self
  · have hplace : (Path.join ⟨1, ["out"]⟩ escapeFile.path).place = ["escape.dart"] := by
      decide +kernel
    have hroot : Path.place ⟨1, ["out"]⟩ = ["out"] := by decide
    rintro ⟨names, -, hnames⟩
    rw [hplace, hroot] at hnames
    exact absurd (List.cons.inj hnames).1 (by decide)

end Escape

end DartModels.Generation
