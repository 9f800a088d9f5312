import DartModels.Proofs.Generation.Drafts
import DartModels.Proofs.Naming.Stem
import DartModels.Proofs.Path.Names

/-! # Imports lead to declarations

Files of one path replace each other, and names with the same stem share a path. What is left at a
path still declares the type that others import from there, because the stem of a name determines
its type name.
-/

namespace DartModels

open Model Naming Schema

namespace Dart

/-- A line that may stand before the declaration of a file. -/
def IsPreamble (line : String) : Prop :=
  line = "" ∨ "//".toList <+: line.toList ∨ "import ".toList <+: line.toList

/-- A file whose first line after comments and imports opens a class or an enumeration. -/
def Declares (content name : String) : Prop :=
  ∃ opening ∈ [s!"class {name} \x7b", s!"enum {name} \x7b"], ∃ before after : List String,
    (∀ line ∈ before, IsPreamble line) ∧ content = unlines (before ++ opening :: after)

theorem fileText_eq_unlines (header body : List String) :
    ∃ before, (∀ line ∈ before, line ∈ header ∨ line = "") ∧
      fileText header body = unlines (before ++ body) := by
  cases header with
  | nil => exact ⟨[], by simp, rfl⟩
  | cons line rest =>
    refine ⟨line :: rest ++ [""], ?_, ?_⟩
    · intro l hl
      rw [← List.mem_singleton (a := l), ← List.mem_append]
      exact hl
    · rw [fileText, unlines_append, unlines_append]
      · rfl
      · simp

theorem declares_fileText {header body : List String} {opening name : String}
    (hheader : ∀ line ∈ header, IsPreamble line)
    (hopening : opening ∈ [s!"class {name} \x7b", s!"enum {name} \x7b"]) :
    Declares (fileText header (opening :: body)) name := by
  obtain ⟨before, hbefore, htext⟩ := fileText_eq_unlines header (opening :: body)
  refine ⟨opening, hopening, before, body, fun line hline => ?_, htext⟩
  rcases hbefore line hline with h | h
  · exact hheader line h
  · exact Or.inl h

theorem isPreamble_importLine (path : String) : IsPreamble (importLine path) := by
  have hword : "import '" = "import " ++ "'" := rfl
  refine Or.inr (Or.inr ?_)
  rw [importLine, hword]
  simp only [toString, String.toList_append, List.append_assoc]
  exact List.prefix_append _ _

theorem isPreamble_of_mem_importLines {o : Options} {m : Model} {line : String}
    (h : line ∈ importLines o m) : IsPreamble line := by
  have hline : line = "" ∨ ∃ path, line = importLine path := by
    simp only [importLines, List.mem_append, List.mem_singleton] at h
    rcases h with (rfl | h) | h
    · exact Or.inr ⟨_, rfl⟩
    · split at h
      · rcases List.mem_cons.1 h with rfl | h
        · exact Or.inl rfl
        · exact Or.inr ⟨_, List.mem_singleton.1 h⟩
      · exact absurd h List.not_mem_nil
    · split at h
      · exact absurd h List.not_mem_nil
      · rcases List.mem_cons.1 h with rfl | h
        · exact Or.inl rfl
        · obtain ⟨path, -, rfl⟩ := List.mem_map.1 h
          exact Or.inr ⟨path, rfl⟩
  rcases hline with rfl | ⟨path, rfl⟩
  · exact Or.inl rfl
  · exact isPreamble_importLine path

theorem isPreamble_of_mem_commentLines {o : Options} {command line : String}
    (h : line ∈ commentLines (Generation.generationComment o command)) : IsPreamble line := by
  unfold Generation.generationComment commentLines at h
  split at h
  · split at h
    · exact absurd h List.not_mem_nil
    · have hmark : "// Generated by " = "//" ++ " Generated by " := rfl
      refine Or.inr (Or.inl ?_)
      rw [List.mem_singleton.1 h, hmark]
      simp only [toString, String.toList_append, List.append_assoc]
      exact List.prefix_append _ _
  · exact absurd h List.not_mem_nil

theorem declares_modelFile (o : Options) (command : String) (m : Model) :
    Declares (modelFile o (Generation.generationComment o command) m) m.name := by
  unfold modelFile classLines
  simp only [List.cons_append]
  refine declares_fileText (fun line hline => ?_) List.mem_cons_self
  rcases List.mem_append.1 hline with h | h
  · exact isPreamble_of_mem_commentLines h
  · exact isPreamble_of_mem_importLines h

theorem declares_enumFile (o : Options) (command : String) (e : Enumeration) :
    Declares (enumFile o (Generation.generationComment o command) e) e.name := by
  unfold enumFile enumLines
  simp only [List.cons_append]
  exact declares_fileText (fun _ => isPreamble_of_mem_commentLines)
    (List.mem_cons_of_mem _ List.mem_cons_self)

end Dart

namespace Generation

/-- The file that is left at a path after all files have been put in place in order. -/
def leftAt (files : List GeneratedFile) (path : Path) : Option GeneratedFile :=
  files.reverse.find? fun f => f.path = path

theorem leftAt_of_mem {files : List GeneratedFile} {f : GeneratedFile} (h : f ∈ files) :
    ∃ g ∈ files, leftAt files f.path = some g ∧ g.path = f.path := by
  have hsome : (files.reverse.find? fun g => g.path = f.path).isSome = true :=
    List.find?_isSome.2 ⟨f, List.mem_reverse.2 h, by simp⟩
  obtain ⟨g, hg⟩ := Option.isSome_iff_exists.1 hsome
  exact ⟨g, List.mem_reverse.1 (List.mem_of_find?_eq_some hg), hg,
    by simpa using List.find?_some hg⟩

/-- A schema name whose stem can name a file. -/
structure IsPlain (name : String) : Prop where
  ascii : IsAscii name.toList
  no_slash : '/' ∉ name.toList
  stem_not_special : fileStem name ∉ ["", ".", ".."]

instance (name : String) : Decidable (IsPlain name) :=
  decidable_of_iff (IsAscii name.toList ∧ '/' ∉ name.toList ∧ fileStem name ∉ ["", ".", ".."])
    ⟨fun ⟨h₁, h₂, h₃⟩ => ⟨h₁, h₂, h₃⟩, fun ⟨h₁, h₂, h₃⟩ => ⟨h₁, h₂, h₃⟩⟩

theorem IsPlain.isName {name : String} (h : IsPlain name) : Path.IsName (fileStem name) := by
  have hspecial := h.stem_not_special
  simp only [List.mem_cons, List.not_mem_nil, or_false, not_or] at hspecial
  obtain ⟨hempty, hdot, hdots⟩ := hspecial
  constructor
  · intro hslash
    rw [fileStem, String.toList_ofList] at hslash
    exact h.no_slash (mem_of_mem_stem h.ascii hslash (by decide) (by decide))
  · exact hempty
  · exact hdot
  · exact hdots

variable {d : Document} {o : Options} {command : String}

theorem name_join {a : Path} {s : String} (h : Path.IsName s) :
    (a.join (Path.ofString s)).name = s := by
  simp [Path.ofString_name h, Path.join, Path.isAbsolute, Path.name]

/-- Every file is named for the stem of some name and declares its type. -/
theorem exists_name_of_mem_build
    (hnames : ∀ A ∈ d.definitions, IsPlain A.name ∧ ∀ p ∈ A.properties, IsPlain p.name)
    (hextension : '/' ∉ o.fileExtension.display.toList) {f : GeneratedFile}
    (h : f ∈ (build d o command).files) :
    ∃ name, IsPlain name ∧ f.path.name = o.fileName (fileStem name) ∧
      Dart.Declares f.content (typeName name) := by
  obtain ⟨A, hA, -, a, files, ha, hfiles, hf⟩ := exists_filesOf_of_mem_build h
  obtain ⟨hplain, hproperties⟩ := hnames A hA
  obtain ⟨kept, hkept, rfl⟩ := analysis_eq ha
  rcases (mem_filesOf hfiles f).1 hf with ⟨e, he, hpath, hcontent⟩ | rfl
  · obtain ⟨p, hp, values, rfl⟩ := exists_property_of_mem_enumerations he
    have hp := hproperties p ((mem_keptProperties hkept p).1 hp).1
    rw [Enumeration.stem_ofValues, enumerationPath] at hpath
    refine ⟨p.name, hp, ?_, ?_⟩
    · split at hpath
      · rw [← Except.ok.inj hpath, name_join (isName_fileName hextension hp.isName)]
      · cases hpath
    · rw [hcontent, ← Enumeration.name_ofValues p.name values]
      exact Dart.declares_enumFile o command _
  · refine ⟨A.name, hplain, ?_, ?_⟩
    · dsimp only
      rw [Analysis.stem_ofProperties, modelPath,
        name_join (isName_fileName hextension hplain.isName)]
    · rw [← Analysis.name_ofProperties d o A.name kept]
      exact Dart.declares_modelFile o command _

/-- What is left at a path declares the type of every name with the stem in that path. -/
theorem exists_leftAt_declares
    (hnames : ∀ A ∈ d.definitions, IsPlain A.name ∧ ∀ p ∈ A.properties, IsPlain p.name)
    (hextension : '/' ∉ o.fileExtension.display.toList) {name : String} (hname : IsPlain name)
    {path : Path} (hmem : ∃ f ∈ (build d o command).files, f.path = path)
    (hpath : path.name = o.fileName (fileStem name)) :
    ∃ g, leftAt (build d o command).files path = some g ∧
      Dart.Declares g.content (typeName name) := by
  obtain ⟨f, hf, rfl⟩ := hmem
  obtain ⟨g, hg, hleft, hsame⟩ := leftAt_of_mem hf
  obtain ⟨other, hother, hstem, hdeclares⟩ := exists_name_of_mem_build hnames hextension hg
  have hstems : fileStem other = fileStem name :=
    fileName_injective o (hstem.symm.trans ((congrArg Path.name hsame).trans hpath))
  rw [typeName_eq_of_fileStem_eq hother.ascii hname.ascii hstems] at hdeclares
  exact ⟨g, hleft, hdeclares⟩

/-- The files of the model of a definition that is kept are among those of the document. -/
theorem mem_build_of_kept (hbuilt : (build d o command).fault? = none) {A : Definition}
    (hA : A ∈ d.definitions) (hkept : o.ignoresClass A.name = .ok false) :
    ∃ a files, analyze d o A = .ok a ∧
      filesOf o (generationComment o command) a.model = .ok files ∧
      ∀ f ∈ files, f ∈ (build d o command).files := by
  obtain ⟨definitions, hdefinitions⟩ := keptDefinitions_of_build hbuilt
  rw [build_of_kept hdefinitions] at hbuilt ⊢
  have hmem := (mem_keptDefinitions hdefinitions A).2 ⟨hA, hkept⟩
  obtain ⟨hfault, hfiles⟩ := draftEach_complete hbuilt hmem
  obtain ⟨a, ha⟩ := exists_analysis_of_fault_none hfault
  exact ⟨a, _, ha, filesOf_of_draftDefinition ha hfault, hfiles⟩

theorem exists_modelFile (hbuilt : (build d o command).fault? = none) {A : Definition}
    (hA : A ∈ d.definitions) (hkept : o.ignoresClass A.name = .ok false) :
    ∃ f ∈ (build d o command).files, f.path = modelPath o (fileStem A.name) := by
  obtain ⟨a, files, ha, hfiles, hin⟩ := mem_build_of_kept hbuilt hA hkept
  obtain ⟨kept, -, rfl⟩ := analysis_eq ha
  refine ⟨_, hin _ ((mem_filesOf hfiles _).2 (Or.inr rfl)), ?_⟩
  rw [Analysis.stem_ofProperties]

theorem exists_enumerationFile (hbuilt : (build d o command).fault? = none) {A : Definition}
    (hA : A ∈ d.definitions) (hkept : o.ignoresClass A.name = .ok false) {a : Analysis}
    (ha : analyze d o A = .ok a) {e : Enumeration} (he : e ∈ a.model.enumerations) {path : Path}
    (hpath : enumerationPath o e.stem = .ok path) :
    ∃ f ∈ (build d o command).files, f.path = path := by
  obtain ⟨b, files, hb, hfiles, hin⟩ := mem_build_of_kept hbuilt hA hkept
  obtain rfl := Except.ok.inj (ha.symm.trans hb)
  have hfile := (mem_filesOf hfiles ⟨path, Dart.enumFile o (generationComment o command) e⟩).2
    (Or.inl ⟨e, he, hpath, rfl⟩)
  exact ⟨_, hin _ hfile, rfl⟩

/-- Every generated type that a model uses is declared, under the name that the model uses, in the
file left at the path that its import leads to from the folder of the model; and the model imports
that path unless it is the path of the model itself. -/
theorem import_leads_to_declaration {folder : String}
    (hnames : ∀ A ∈ d.definitions, IsPlain A.name ∧ ∀ p ∈ A.properties, IsPlain p.name)
    (hfolder : o.enumsFolder = .str folder) (hsegment : Path.IsName folder)
    (hextension : '/' ∉ o.fileExtension.display.toList)
    (hbuilt : (build d o command).fault? = none) {A : Definition} (hA : A ∈ d.definitions)
    (hkept : o.ignoresClass A.name = .ok false) {a : Analysis} (ha : analyze d o A = .ok a)
    {p : Property} (hp : p ∈ A.properties) (hfield : o.ignoresField p.name = .ok false)
    {T : TypeRef} (hT : T ∈ (Field.ofProperty d o p).type.walk) {path : String}
    (hpath : T.importPath? = some path)
    (hreferenced : ∀ D, p.node.referenced? d = some D → o.ignoresClass D.name = .ok false) :
    let target := ((Path.ofString a.model.stem).join (Path.ofString path)).normalized
    (∃ f, leftAt (build d o command).files target = some f ∧
        Dart.Declares f.content (Dart.typeText T)) ∧
      (path ∈ a.model.imports ∨ target = modelPath o a.model.stem) := by
  obtain ⟨kept, hproperties, rfl⟩ := analysis_eq ha
  have hmem := (mem_keptProperties hproperties p).2 ⟨hp, hfield⟩
  have hplain := (hnames A hA).1
  rw [Analysis.stem_ofProperties]
  constructor
  · rcases mem_walk_resolve hT hpath with ⟨D, hD, rfl⟩ | ⟨values, rfl⟩
    · have hname := (hnames D (mem_of_referenced? hD)).1
      have hfile := isName_fileName hextension hname.isName
      obtain rfl : modelImport o D.name = path := Option.some.inj hpath
      rw [modelImport, Path.normalized_join_above hplain.isName hname.isName hfile]
      have hexists := exists_modelFile hbuilt (mem_of_referenced? hD) (hreferenced D hD)
      exact exists_leftAt_declares hnames hextension hname hexists (name_join hfile)
    · have hname := (hnames A hA).2 p hp
      have hfile := isName_fileName hextension hname.isName
      obtain rfl : enumerationImport o p.name = path := Option.some.inj hpath
      have htext : o.enumsFolder.display = folder := by rw [hfolder, Json.display]
      have henum := mem_enumerations A.name hmem hT
      have hplace : enumerationPath o (Enumeration.ofValues p.name values).stem =
          .ok ((Path.ofString folder).join (Path.ofString (o.fileName (fileStem p.name)))) := by
        rw [enumerationPath, hfolder, Enumeration.stem_ofValues]
      rw [enumerationImport, htext, Path.normalized_join_above hplain.isName hsegment hfile]
      have hexists := exists_enumerationFile hbuilt hA hkept ha henum hplace
      rw [Dart.typeText, Enumeration.name_ofValues]
      exact exists_leftAt_declares hnames hextension hname hexists (name_join hfile)
  · rcases mem_imports A.name hmem hT hpath with himport | rfl
    · exact Or.inl himport
    · right
      rw [modelImport, Path.normalized_join_above hplain.isName hplain.isName
        (isName_fileName hextension hplain.isName), modelPath]

/-- A model with a list of lists of models, and two definitions that share one file. -/
def twins : Document where
  definitions := [
    ⟨"User", [⟨"homes",
      .list (some (.list (some (.reference "#/definitions/HomeAddress" "")) "")) ""⟩]⟩,
    ⟨"HomeAddress", []⟩,
    ⟨"home_address", [⟨"kind", .enumeration [.str "flat"] false ""⟩]⟩]

theorem import_leads_to_declaration_twins :
    (build twins {} "").fault? = none ∧
      (∃ f, leftAt (build twins {} "").files
          ((Path.ofString (fileStem "User")).join
            (Path.ofString "../home_address/home_address.dart")).normalized = some f ∧
        Dart.Declares f.content "HomeAddress") := by
  have hbuilt : (build twins {} "").fault? = none := by rfl
  have hnames : ∀ A ∈ twins.definitions, IsPlain A.name ∧ ∀ p ∈ A.properties, IsPlain p.name := by
    decide +kernel
  have hname : typeName "HomeAddress" = "HomeAddress" := by decide +kernel
  have himport : modelImport {} "HomeAddress" = "../home_address/home_address.dart" := by
    decide +kernel
  have hresolved : twins.resolve? "#/definitions/HomeAddress" = some ⟨"HomeAddress", []⟩ := by rfl
  have hwalk : TypeRef.model (typeName "HomeAddress") (modelImport {} "HomeAddress") ∈
      (Field.ofProperty twins {} ⟨"homes",
        .list (some (.list (some (.reference "#/definitions/HomeAddress" "")) ""))
          ""⟩).type.walk := by
    simp [Field.ofProperty, resolve, resolveReference, hresolved, TypeRef.walk]
  have h := import_leads_to_declaration hnames rfl (by decide +kernel) (by decide +kernel) hbuilt
    List.mem_cons_self rfl rfl List.mem_cons_self rfl hwalk rfl (fun _ _ => rfl)
  rw [hname, himport] at h
  exact ⟨hbuilt, h.1⟩

end Generation

end DartModels
