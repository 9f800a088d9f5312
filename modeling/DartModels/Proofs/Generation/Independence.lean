import DartModels.Proofs.Dart.StructuralCheck
import DartModels.Proofs.Generation.Writes

/-! # Definitions are generated independently

A definition looks at the others only to see whether a name is defined. What is drafted for it does
therefore not depend on what the others hold or on their order, and the order does not matter for
the files of a run either unless two of them have one place.
-/

namespace DartModels

namespace Schema

variable {d d' : Document}

/-- Documents that define the same names. -/
def SameNames (d d' : Document) : Prop :=
  ∀ name, name ∈ d.definitions.map (·.name) ↔ name ∈ d'.definitions.map (·.name)

theorem sameNames_of_perm (h : d.definitions.Perm d'.definitions) : SameNames d d' :=
  fun _ => (h.map (·.name)).mem_iff

theorem map_name_find? (d : Document) (name : String) :
    (d.find? name).map (·.name) =
      if name ∈ d.definitions.map (·.name) then some name else none := by
  rw [Document.find?]
  cases hD : d.definitions.find? fun D => D.name == name with
  | none =>
    rw [List.find?_eq_none] at hD
    rw [if_neg]
    · rfl
    · intro hmem
      obtain ⟨D, hdefined, rfl⟩ := List.mem_map.1 hmem
      exact hD D hdefined (beq_self_eq_true D.name)
  | some D =>
    have hname : D.name = name := by simpa using List.find?_some hD
    rw [Option.map_some, hname, if_pos]
    exact List.mem_map.2 ⟨D, List.mem_of_find?_eq_some hD, hname⟩

/-- A reference leads to definitions of one name in both documents, or nowhere in both. -/
theorem SameNames.map_name_resolve? (h : SameNames d d') (pointer : String) :
    (d.resolve? pointer).map (·.name) = (d'.resolve? pointer).map (·.name) := by
  unfold Document.resolve?
  dsimp only
  split
  · rfl
  · rw [map_name_find?, map_name_find?]
    exact if_congr (h _) rfl rfl

theorem SameNames.isSome_resolve? (h : SameNames d d') (pointer : String) :
    (d.resolve? pointer).isSome = (d'.resolve? pointer).isSome := by
  have := congrArg Option.isSome (h.map_name_resolve? pointer)
  rwa [Option.isSome_map, Option.isSome_map] at this

end Schema

namespace Model

open Naming Schema

variable {d d' : Document}

theorem resolveReference_congr (h : SameNames d d') (o : Options) (pointer : String) :
    resolveReference d o pointer = resolveReference d' o pointer := by
  have hmap : ∀ d : Document, resolveReference d o pointer =
      ((d.resolve? pointer).map (·.name)).map fun name =>
        .model (typeName name) (modelImport o name) := by
    intro d
    rw [resolveReference, Option.map_map]
    rfl
  rw [hmap, hmap, h.map_name_resolve?]

theorem resolve_congr (h : SameNames d d') (o : Options) (property : String) (node : Node) :
    resolve d o property node = resolve d' o property node := by
  fun_induction resolve d o property node with
  | case1 _ _ p hp => rw [resolve, hp]
  | case2 _ _ hp => rw [resolve, hp]
  | case3 => rfl
  | case4 _ _ _ _ hlist => rw [resolve, if_neg hlist]
  | case5 pointer => rw [resolve, resolveReference_congr h]
  | case6 => rw [resolve]
  | case7 items _ ih => rw [resolve, ih]

theorem unresolved_congr (h : SameNames d d') (node : Node) :
    unresolved d node = unresolved d' node := by
  fun_induction unresolved d node with
  | case1 pointer _ hsome => rw [unresolved, ← h.isSome_resolve?, if_pos hsome]
  | case2 pointer _ hnone => rw [unresolved, ← h.isSome_resolve?, if_neg hnone]
  | case3 items _ ih => rw [unresolved, ih]
  | case4 => rw [unresolved] <;> assumption

/-- Which names are defined does matter. -/
example : unresolved ⟨[⟨"Item", []⟩]⟩ (.reference "#/definitions/Item" "#") = [] ∧
    unresolved ⟨[]⟩ (.reference "#/definitions/Item" "#") = [⟨"#/definitions/Item", "#"⟩] := by
  decide +kernel

theorem ofProperties_congr (h : SameNames d d') (o : Options) (name : String)
    (kept : List Property) :
    Analysis.ofProperties d o name kept = Analysis.ofProperties d' o name kept := by
  have hfield : Field.ofProperty d o = Field.ofProperty d' o := by
    funext p
    rw [Field.ofProperty, Field.ofProperty, resolve_congr h]
  have hunresolved : unresolved d = unresolved d' := funext (unresolved_congr h)
  rw [Analysis.ofProperties, Analysis.ofProperties, hfield, hunresolved]

theorem analyze_congr (h : SameNames d d') (o : Options) (A : Definition) :
    analyze d o A = analyze d' o A := by
  simp only [analyze, ofProperties_congr h]

end Model

namespace Generation

open Dart Files Model Schema

variable {d d' : Document} {o : Options} {command : String} {root : Path}

theorem draftDefinition_congr (h : SameNames d d') (o : Options) (command : String)
    (A : Definition) : draftDefinition d o command A = draftDefinition d' o command A := by
  rw [draftDefinition, draftDefinition, analyze_congr h]

theorem keptDefinitions_perm (h : d.definitions.Perm d'.definitions) {kept kept' : List Definition}
    (hkept : keptDefinitions o d.definitions = .ok kept)
    (hkept' : keptDefinitions o d'.definitions = .ok kept') : kept.Perm kept' := by
  rw [keptDefinitions_eq, keep_eq_ok_iff] at hkept hkept'
  rw [hkept.2, hkept'.2]
  exact h.filter _

theorem build_files_perm (h : d.definitions.Perm d'.definitions)
    (hbuilt : (build d o command).fault? = none) (hbuilt' : (build d' o command).fault? = none) :
    (build d o command).files.Perm (build d' o command).files := by
  obtain ⟨kept, hkept⟩ := keptDefinitions_of_build hbuilt
  obtain ⟨kept', hkept'⟩ := keptDefinitions_of_build hbuilt'
  rw [build_of_kept hkept] at hbuilt ⊢
  rw [build_of_kept hkept'] at hbuilt' ⊢
  rw [files_draftEach hbuilt, files_draftEach hbuilt', filesOfEach, filesOfEach,
    funext fun A => congrArg Draft.files (draftDefinition_congr (sameNames_of_perm h) o command A)]
  exact (keptDefinitions_perm h hkept hkept').flatMap_right _

/-- If no two files have one place, the last file at a place is the only one. -/
theorem lastAt_eq_some_iff {files : List GeneratedFile}
    (h : (files.map fun file => (root.join file.path).place).Nodup) {q : Place}
    {file : GeneratedFile} :
    lastAt root files q = some file ↔ file ∈ files ∧ q = (root.join file.path).place := by
  constructor
  · exact mem_of_lastAt
  · rintro ⟨hmem, rfl⟩
    obtain ⟨last, hlast⟩ := exists_lastAt root hmem
    obtain ⟨hlastmem, hplace⟩ := mem_of_lastAt hlast
    rw [hlast, List.inj_on_of_nodup_map h hlastmem hmem hplace.symm]

theorem lastAt_perm {files files' : List GeneratedFile} (hperm : files.Perm files')
    (h : (files.map fun file => (root.join file.path).place).Nodup) (q : Place) :
    lastAt root files q = lastAt root files' q := by
  have h' := (hperm.map _).nodup_iff.1 h
  ext file
  rw [lastAt_eq_some_iff h, lastAt_eq_some_iff h', hperm.mem_iff]

/-- What is drafted for a definition depends only on the definition itself and on which names are
defined. Documents that differ in the order of their definitions leave the same files with the same
contents, if no two files of them have one place and both runs succeed. -/
theorem definitions_independent (o : Options) (command : String) :
    (∀ d d' : Document, SameNames d d' → ∀ A ∈ d.definitions, A ∈ d'.definitions →
      draftDefinition d o command A = draftDefinition d' o command A) ∧
    ∀ d d' : Document, d.definitions.Perm d'.definitions → ∀ (root : Path) (t : Tree),
      ((build d o command).files.map fun file => (root.join file.path).place).Nodup →
      let r := generate d o command root (.ofTree t)
      let r' := generate d' o command root (.ofTree t)
      r.1 = .ok () → r'.1 = .ok () →
        ∀ q, r.2.disk.tree.content? q = r'.2.disk.tree.content? q := by
  constructor
  · exact fun d d' h A _ _ => draftDefinition_congr h o command A
  · intro d d' h root t hplaces r r' hr hr' q
    obtain ⟨hbuilt, hw⟩ := written_of_generate_ok hr
    obtain ⟨hbuilt', hw'⟩ := written_of_generate_ok hr'
    rw [hw.content?_eq, hw'.content?_eq, lastAt_perm (build_files_perm h hbuilt hbuilt') hplaces]

section Crossed

/-- Two definitions that refer to each other. -/
def left : Definition :=
  ⟨"Left", [⟨"other", .reference "#/definitions/Right" ""⟩]⟩

def right : Definition :=
  ⟨"Right", [⟨"other", .reference "#/definitions/Left" ""⟩]⟩

def crossed : Document where
  definitions := [left, right]

def crossedBack : Document where
  definitions := [right, left]

/-- The file of one of the two. -/
def crossedFile (d : Document) (A : Definition) : GeneratedFile :=
  modelFileOf {} programName (.ofProperties d {} A.name A.properties)

theorem files_crossed : (build crossed {} programName).files =
    [crossedFile crossed left, crossedFile crossed right] := by rfl

theorem files_crossedBack : (build crossedBack {} programName).files =
    [crossedFile crossedBack right, crossedFile crossedBack left] := by rfl

theorem checkStructure_crossedFile {d : Document} {A : Definition} {path : String}
    (ha : analyze d {} A = .ok (.ofProperties d {} A.name A.properties))
    (himports : (Analysis.ofProperties d {} A.name A.properties).model.imports = [path])
    (hpath : IsUnescaped path) : checkStructure (crossedFile d A).content.toList = .ok () := by
  have hcommand : '\n' ∉ programName.toList := by decide
  refine checkStructure_modelFile ha hcommand ?_
  rw [himports]
  exact List.forall_mem_singleton.2 (turns_importLine hpath [])

theorem written_crossed :
    (∃ after, Written {} ⟨1, ["out"]⟩ (.ofTree ⟨[]⟩)
      [crossedFile crossed left, crossedFile crossed right] after) ∧
    ∃ after, Written {} ⟨1, ["out"]⟩ (.ofTree ⟨[]⟩)
      [crossedFile crossedBack right, crossedFile crossedBack left] after := by
  have hleft : IsUnescaped "../left/left.dart" := by decide
  have hright : IsUnescaped "../right/right.dart" := by decide
  constructor
  · refine ⟨_, .of_checked ?_ (by decide +kernel) (.of_checked ?_ (by decide +kernel) .nil)⟩
    · exact checkStructure_crossedFile rfl rfl hright
    · exact checkStructure_crossedFile rfl rfl hleft
  · refine ⟨_, .of_checked ?_ (by decide +kernel) (.of_checked ?_ (by decide +kernel) .nil)⟩
    · exact checkStructure_crossedFile rfl rfl hleft
    · exact checkStructure_crossedFile rfl rfl hright

theorem definitions_independent_crossed :
    draftDefinition crossed {} programName left = draftDefinition crossedBack {} programName left ∧
      let r := generate crossed {} programName ⟨1, ["out"]⟩ (.ofTree ⟨[]⟩)
      let r' := generate crossedBack {} programName ⟨1, ["out"]⟩ (.ofTree ⟨[]⟩)
      r.1 = .ok () ∧ r'.1 = .ok () ∧
        ∀ q, r.2.disk.tree.content? q = r'.2.disk.tree.content? q := by
  obtain ⟨hdrafts, hruns⟩ := definitions_independent {} programName
  have hperm : crossed.definitions.Perm crossedBack.definitions := .swap right left []
  have hplaces : ((build crossed {} programName).files.map
      fun file => (Path.join ⟨1, ["out"]⟩ file.path).place).Nodup := by
    rw [files_crossed]
    decide
  obtain ⟨⟨_, hw⟩, _, hw'⟩ := written_crossed
  have hr : (generate crossed {} programName ⟨1, ["out"]⟩ (.ofTree ⟨[]⟩)).1 = .ok () :=
    generate_ok_of_written rfl (files_crossed ▸ hw)
  have hr' : (generate crossedBack {} programName ⟨1, ["out"]⟩ (.ofTree ⟨[]⟩)).1 = .ok () :=
    generate_ok_of_written rfl (files_crossedBack ▸ hw')
  constructor
  · exact hdrafts crossed crossedBack (sameNames_of_perm hperm) left List.mem_cons_self
      (List.mem_cons_of_mem right List.mem_cons_self)
  · exact ⟨hr, hr', hruns crossed crossedBack hperm _ _ hplaces hr hr'⟩

end Crossed

end Generation

end DartModels
