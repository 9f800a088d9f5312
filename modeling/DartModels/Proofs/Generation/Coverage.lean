import DartModels.Proofs.Generation.Entries
import DartModels.Proofs.Generation.Typed
import DartModels.Proofs.Generation.Writes
import DartModels.Proofs.Model.Leaves

/-! # What a build covers

A build goes through the entries of a schema that are kept. For each it has a file for every kept
property that reaches literals, and after these the file of the model with all kept properties.
-/

namespace DartModels.Generation

open Files Model Naming Schema

variable {d : Document} {o : Options} {command comment : String} {root : Path}

section Groups

/-- The file that is made of an enumeration. -/
def IsFileOf (o : Options) (comment : String) (e : Enumeration) (file : GeneratedFile) : Prop :=
  enumerationPath o e.stem = .ok file.path ∧ file.content = Dart.enumFile o comment e

theorem enumerationFiles_ok {enumerations : List Enumeration} {files : List GeneratedFile}
    (h : enumerationFiles o comment enumerations = .ok files) :
    List.Forall₂ (IsFileOf o comment) enumerations files := by
  induction enumerations generalizing files with
  | nil =>
    cases h
    exact .nil
  | cons e rest ih =>
    rw [enumerationFiles] at h
    cases hpath : enumerationPath o e.stem with
    | error fault => simp [hpath] at h
    | ok path =>
      cases hrest : enumerationFiles o comment rest with
      | error fault => simp [hpath, hrest, Except.map] at h
      | ok others =>
        simp only [hpath, hrest, Except.map, Except.ok.injEq] at h
        subst h
        exact .cons ⟨hpath, rfl⟩ (ih hrest)

/-- The files of a definition: those of enumerations and that of the model. -/
structure Group where
  enums : List GeneratedFile
  model : GeneratedFile

def Group.files (g : Group) : List GeneratedFile :=
  g.enums ++ [g.model]

/-- The files of several definitions in order. -/
def allFiles (groups : List Group) : List GeneratedFile :=
  groups.flatMap Group.files

/-- A group has a file for every kept property of an entry that reaches literals, in order, and the
model has a field for every kept property, in order. -/
structure Covers (d : Document) (o : Options) (command : String) (entry : String × Json)
    (g : Group) : Prop where
  enums : Picks (fun p file => ∃ e, DeclaresInline p e ∧
    IsFileOf o (generationComment o command) e file) (keptMembers o entry) g.enums
  model : ∃ m : DartModels.Model, m.name = typeName entry.1 ∧ m.schemaName = entry.1 ∧
    m.fields = (keptMembers o entry).map (fun p => .ofProperty d o (propertyOf entry.1 p)) ∧
    g.model = ⟨modelPath o (fileStem entry.1), Dart.modelFile o (generationComment o command) m⟩

/-- The model of an entry has the kept properties as fields and the enumerations they reach. -/
theorem model_of_analyze {entry : String × Json} {a : Analysis}
    (h : analyze d o (definitionOf entry) = .ok a) :
    a.model.name = typeName entry.1 ∧ a.model.schemaName = entry.1 ∧
      a.model.fields = (keptMembers o entry).map (fun p => .ofProperty d o (propertyOf entry.1 p)) ∧
      Picks DeclaresInline (keptMembers o entry) a.model.enumerations := by
  obtain ⟨kept, hkept, rfl⟩ := analysis_eq h
  obtain rfl := keptProperties_definitionOf hkept
  refine ⟨Analysis.name_ofProperties .., Analysis.schemaName_ofProperties .., ?_, ?_⟩
  · rw [Analysis.fields_ofProperties, List.map_map]
    rfl
  · rw [Analysis.enumerations_ofProperties, List.flatMap_map]
    exact Picks.of_forall fun p _ => enumerations_ofJson d o (propertyPath entry.1 p.1) p

/-- The files of a definition whose draft was not stopped cover its entry. -/
theorem exists_covers {entry : String × Json}
    (h : (draftDefinition d o command (definitionOf entry)).fault? = none) :
    ∃ g, Covers d o command entry g ∧
      (draftDefinition d o command (definitionOf entry)).files = g.files := by
  obtain ⟨a, ha⟩ := exists_analysis_of_fault_none h
  obtain ⟨hname, hschema, hfields, hpicks⟩ := model_of_analyze ha
  have hfiles := filesOf_of_draftDefinition ha h
  rw [filesOf] at hfiles
  cases henums : enumerationFiles o (generationComment o command) a.model.enumerations with
  | error fault => simp [henums, Except.map] at hfiles
  | ok enums =>
    rw [henums, stem_of_analyze ha] at hfiles
    have hfileOf := enumerationFiles_ok henums
    exact ⟨⟨enums, _⟩, ⟨hpicks.comp hfileOf, a.model, hname, hschema, hfields, rfl⟩,
      (Except.ok.inj hfiles).symm⟩

theorem exists_groups {entries : List (String × Json)}
    (h : ∀ entry ∈ entries, (draftDefinition d o command (definitionOf entry)).fault? = none) :
    ∃ groups, List.Forall₂ (Covers d o command) entries groups ∧
      filesOfEach d o command (entries.map definitionOf) = allFiles groups := by
  induction entries with
  | nil => exact ⟨[], .nil, rfl⟩
  | cons entry rest ih =>
    obtain ⟨hentry, hrest⟩ := List.forall_mem_cons.1 h
    obtain ⟨g, hg, hfiles⟩ := exists_covers hentry
    obtain ⟨groups, hgroups, hothers⟩ := ih hrest
    refine ⟨g :: groups, .cons hg hgroups, ?_⟩
    rw [List.map_cons, filesOfEach, List.flatMap_cons, hfiles, allFiles, List.flatMap_cons]
    exact congrArg _ hothers

end Groups

/-- A draft of several definitions has the files of those that are reached before one is stopped. -/
theorem exists_reached (d : Document) (o : Options) (command : String)
    (definitions : List Definition) :
    ∃ reached, reached <+: definitions ∧
      (∀ A ∈ reached, (draftDefinition d o command A).fault? = none) ∧
      (draftEach d o command definitions).files = filesOfEach d o command reached ∧
      ((draftEach d o command definitions).fault? = none → reached = definitions) := by
  induction definitions with
  | nil => exact ⟨[], List.prefix_rfl, List.forall_mem_nil _, rfl, fun _ => rfl⟩
  | cons A rest ih =>
    rw [draftEach, Draft.andThen]
    cases hfault : (draftDefinition d o command A).fault? with
    | some fault =>
      refine ⟨[], List.nil_prefix, List.forall_mem_nil _, draftDefinition_files_of_fault hfault,
        fun hnone => ?_⟩
      cases hfault.symm.trans hnone
    | none =>
      obtain ⟨reached, hprefix, hall, hfiles, hend⟩ := ih
      refine ⟨A :: reached, List.cons_prefix_cons.2 ⟨rfl, hprefix⟩,
        List.forall_mem_cons.2 ⟨hfault, hall⟩, congrArg _ hfiles, fun hnone => ?_⟩
      rw [hend hnone]

section Order

variable {groups earlier later : List Group} {g : Group} {written : List GeneratedFile}

/-- Where files are written in order, a model is written only after all its enumerations. -/
theorem model_after_enums (hgroups : groups = earlier ++ g :: later)
    (h : written <+: allFiles groups) :
    allFiles earlier ++ g.files <+: written ∨ written <+: allFiles earlier ++ g.enums := by
  have hall : allFiles earlier ++ g.files <+: allFiles groups := by
    rw [hgroups, allFiles, allFiles, List.flatMap_append, List.flatMap_cons, ← List.append_assoc]
    exact List.prefix_append _ _
  rcases List.prefix_or_prefix_of_prefix hall h with hdone | hpart
  · exact .inl hdone
  · rw [Group.files, ← List.append_assoc] at hpart ⊢
    rcases List.prefix_concat_iff.1 hpart with rfl | hpart
    · exact .inl List.prefix_rfl
    · exact .inr hpart

end Order

/-- The files of a build cover the entries that are kept, up to where it is stopped. -/
theorem exists_covered {entries : List (String × Json)}
    (hd : d.definitions = (entries.filter isDefinition).map definitionOf) (o : Options)
    (command : String) :
    ∃ reached groups, reached <+: keptEntries o entries ∧
      ((build d o command).fault? = none → reached = keptEntries o entries) ∧
      List.Forall₂ (Covers d o command) reached groups ∧
      (build d o command).files = allFiles groups := by
  cases hkept : keptDefinitions o d.definitions with
  | error fault =>
    rw [build, hkept]
    exact ⟨[], [], List.nil_prefix, fun hnone => absurd hnone (Option.some_ne_none fault), .nil,
      rfl⟩
  | ok kept =>
    rw [build_of_kept hkept]
    rw [hd] at hkept
    obtain rfl := keptDefinitions_definitionOf hkept
    obtain ⟨definitions, hreached, hall, hfiles, hend⟩ :=
      exists_reached d o command ((keptEntries o entries).map definitionOf)
    obtain ⟨reached, hprefix, rfl⟩ := List.prefix_map_iff.1 hreached
    obtain ⟨groups, hcovers, hgroups⟩ := exists_groups (List.forall_mem_map.1 hall)
    refine ⟨reached, groups, hprefix, fun hnone => ?_, hcovers, hfiles.trans hgroups⟩
    have hlength := congrArg List.length (hend hnone)
    rw [List.length_map, List.length_map] at hlength
    exact hprefix.eq_of_length hlength

/-- A build has, for every entry of the definitions that is an object and no comment and is not
ignored, in order, a file for every kept property that reaches literals, in order, and then one file
of a model whose fields are the kept properties in order. Options that cannot be used may stop it
before the last entry; options of the declared types do not. However a run ends, whenever it has
written a model it has written all files of that model's enumerations before. -/
theorem build_covers_schema {schema : Json} {entries : List (String × Json)}
    (h : schema.member? "definitions" = some (.obj entries)) (o : Options) (command : String) :
    ∃ reading, Reading.ofJson schema = .ok reading ∧
      let draft := build reading.document o command
      (o.WellTyped → draft.fault? = none) ∧
      ∃ reached groups, reached <+: keptEntries o entries ∧
        (draft.fault? = none → reached = keptEntries o entries) ∧
        List.Forall₂ (Covers reading.document o command) reached groups ∧
        draft.files = allFiles groups ∧
        ∀ (root : Path) (t : Tree), ∃ done stop?,
          Outcome o root (.ofTree t) draft.files done stop?
            (generate reading.document o command root (.ofTree t)).2.disk ∧
          ∀ written, written <+: done → ∀ earlier g later, groups = earlier ++ g :: later →
            allFiles earlier ++ g.files <+: written ∨
              written <+: allFiles earlier ++ g.enums := by
  refine ⟨.ofEntries entries, by rw [Reading.ofJson, h], ?_⟩
  intro draft
  refine ⟨fun ho => fault_build ho _ command, ?_⟩
  obtain ⟨reached, groups, hprefix, hend, hcovers, hfiles⟩ :=
    exists_covered (definitions_ofEntries entries) o command
  refine ⟨reached, groups, hprefix, hend, hcovers, hfiles, fun root t => ?_⟩
  obtain ⟨done, stop?, ho, -, -⟩ :=
    generate_outcome (Reading.ofEntries entries).document o command root (.ofTree t)
  refine ⟨done, stop?, ho, fun written hwritten earlier g later hgroups => ?_⟩
  exact model_after_enums hgroups (hwritten.trans (hfiles ▸ ho.done_prefix))

section Shelf

/-- A comment, and an item with a list of states. -/
def shelfEntries : List (String × Json) :=
  [("_comment", .str "what stands on the shelf"),
    ("Item", .obj [("properties", .obj [("states", .obj [("type", .str "array"),
      ("items", .obj [("enum", .arr [.str "new", .str "worn"])])])])])]

theorem build_covers_schema_shelf :
    let schema : Json := .obj [("definitions", .obj shelfEntries)]
    schema.member? "definitions" = some (.obj shelfEntries) ∧
      (keptEntries {} shelfEntries).map (·.1) = ["Item"] ∧
      ∃ reading, Reading.ofJson schema = .ok reading ∧
        ∃ groups, List.Forall₂ (Covers reading.document {} programName)
          (keptEntries {} shelfEntries) groups ∧
          (build reading.document {} programName).files = allFiles groups := by
  intro schema
  have hmember : schema.member? "definitions" = some (.obj shelfEntries) := by rfl
  obtain ⟨reading, hread, hnone, reached, groups, -, hend, hcovers, hfiles, -⟩ :=
    build_covers_schema hmember {} programName
  have hall := hend (hnone Options.wellTyped_default)
  exact ⟨hmember, by decide, reading, hread, groups, hall ▸ hcovers, hfiles⟩

end Shelf

end DartModels.Generation
