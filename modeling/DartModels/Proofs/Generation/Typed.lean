import DartModels.Proofs.Generation.Drafts

/-! # Options of the declared types

Options are not checked when they are read, and one that cannot be used stops the work where it is
needed. Options of the declared types never do.
-/

namespace DartModels

namespace Options

/-- The values have the types that are declared for them. -/
structure WellTyped (o : Options) : Prop where
  ignoreClasses : ∃ names : List String, o.ignoreClasses = some (.arr (names.map .str))
  ignoreFields : ∃ names : List String, o.ignoreFields = some (.arr (names.map .str))
  generationComment : ∃ b, o.generationComment = .bool b
  enumsFolder : ∃ folder, o.enumsFolder = .str folder
  fileExtension : ∃ extension, o.fileExtension = .str extension
  deepEquality : ∃ b, o.deepEquality = .bool b
  wireValues : ∃ b, o.wireValues = .bool b
  validate : ∃ b, o.validate = .bool b

theorem wellTyped_default : WellTyped {} :=
  ⟨⟨[], rfl⟩, ⟨[], rfl⟩, ⟨_, rfl⟩, ⟨_, rfl⟩, ⟨_, rfl⟩, ⟨_, rfl⟩, ⟨_, rfl⟩, ⟨_, rfl⟩⟩

theorem holdsName_names (name : String) (names : List String) :
    holdsName name (.arr (names.map .str)) = .ok (names.contains name) := by
  rw [holdsName, List.filterMap_map]
  exact congrArg (fun l => Except.ok (List.contains l name)) List.filterMap_some

variable {o : Options}

/-- A name is ignored if it is in the list. -/
theorem WellTyped.exists_ignoresClass (h : o.WellTyped) :
    ∃ names : List String, o.ignoreClasses = some (.arr (names.map .str)) ∧
      ∀ name, o.ignoresClass name = .ok (names.contains name) := by
  obtain ⟨names, hnames⟩ := h.ignoreClasses
  refine ⟨names, hnames, fun name => ?_⟩
  rw [ignoresClass, hnames]
  exact holdsName_names name names

theorem WellTyped.exists_ignoresField (h : o.WellTyped) :
    ∃ names : List String, o.ignoreFields = some (.arr (names.map .str)) ∧
      ∀ name, o.ignoresField name = .ok (names.contains name) := by
  obtain ⟨names, hnames⟩ := h.ignoreFields
  refine ⟨names, hnames, fun name => ?_⟩
  rw [ignoresField, hnames]
  exact holdsName_names name names

end Options

namespace Generation

open Model Schema

variable {d : Document} {o : Options} {command : String}

theorem exists_keptDefinitions (h : o.WellTyped) (definitions : List Definition) :
    ∃ kept, keptDefinitions o definitions = .ok kept := by
  obtain ⟨names, -, hignores⟩ := h.exists_ignoresClass
  rw [keptDefinitions_eq]
  exact ⟨_, keep_eq_ok_iff.2 ⟨fun A _ => by rw [hignores]; rfl, rfl⟩⟩

theorem exists_analysis (h : o.WellTyped) (d : Document) (A : Definition) :
    ∃ a, analyze d o A = .ok a := by
  obtain ⟨names, -, hignores⟩ := h.exists_ignoresField
  exact (exists_analysis_iff d o A).2 fun p _ => by rw [hignores]; rfl

theorem exists_enumerationFiles (h : o.WellTyped) (comment : String)
    (enumerations : List Enumeration) :
    ∃ files, enumerationFiles o comment enumerations = .ok files := by
  obtain ⟨folder, hfolder⟩ := h.enumsFolder
  induction enumerations with
  | nil => exact ⟨[], rfl⟩
  | cons e rest ih =>
    obtain ⟨files, hfiles⟩ := ih
    rw [enumerationFiles, enumerationPath, hfolder, hfiles]
    exact ⟨_, rfl⟩

theorem fault_draftDefinition (h : o.WellTyped) (d : Document) (command : String)
    (A : Definition) : (draftDefinition d o command A).fault? = none := by
  obtain ⟨a, ha⟩ := exists_analysis h d A
  obtain ⟨files, hfiles⟩ :=
    exists_enumerationFiles h (generationComment o command) a.model.enumerations
  rw [draftDefinition, ha]
  dsimp only
  rw [filesOf, hfiles]
  rfl

theorem fault_draftEach (h : o.WellTyped) (d : Document) (command : String)
    (definitions : List Definition) : (draftEach d o command definitions).fault? = none := by
  induction definitions with
  | nil => rfl
  | cons A rest ih =>
    rw [draftEach, Draft.andThen, fault_draftDefinition h]
    exact ih

/-- Options of the declared types stop no draft. -/
theorem fault_build (h : o.WellTyped) (d : Document) (command : String) :
    (build d o command).fault? = none := by
  obtain ⟨kept, hkept⟩ := exists_keptDefinitions h d.definitions
  rw [build_of_kept hkept]
  exact fault_draftEach h d command kept

end Generation

end DartModels
