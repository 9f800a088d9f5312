import DartModels.Proofs.Generation.Independence
import DartModels.Proofs.Generation.Typed

/-! # Ignoring is deleting

Ignored properties might as well not be in the document. Ignored definitions lose their files, but
stay in the document for the others to refer to, so the files of the others are the same as ever.
-/

namespace DartModels

/-- The options with lists of names of ignored definitions and properties. -/
def Options.ignoring (o : Options) (classes fields : List String) : Options :=
  { o with
    ignoreClasses := some (.arr (classes.map .str))
    ignoreFields := some (.arr (fields.map .str)) }

namespace Schema

/-- The definition without the properties of the given names. -/
def Definition.without (names : List String) (A : Definition) : Definition :=
  { A with properties := A.properties.filter fun p => p.name ∉ names }

def Document.without (names : List String) (d : Document) : Document where
  definitions := d.definitions.map (·.without names)

@[simp]
theorem Definition.name_without (names : List String) (A : Definition) :
    (A.without names).name = A.name := rfl

theorem Definition.without_nil (A : Definition) : A.without [] = A := by
  simp [Definition.without]

/-- Properties come and go without a change to the names that references lead to. -/
theorem sameNames_without (d : Document) (names : List String) : SameNames d (d.without names) := by
  intro name
  rw [Document.without, List.map_map]
  rfl

end Schema

namespace Model

open Naming Schema

variable {o : Options} {classes fields : List String}

theorem resolve_ignoring (d : Document) (property : String) (node : Node) :
    resolve d (o.ignoring classes fields) property node = resolve d o property node := by
  fun_induction resolve d o property node with
  | case1 _ _ p hp => rw [resolve, hp]
  | case2 _ _ hp => rw [resolve, hp]
  | case3 => rfl
  | case4 _ _ _ _ hlist =>
    rw [resolve, if_neg hlist]
    rfl
  | case5 => rfl
  | case6 => rw [resolve]
  | case7 items _ ih => rw [resolve, ih]

theorem ofProperties_ignoring (d : Document) (name : String) (kept : List Property) :
    Analysis.ofProperties d (o.ignoring classes fields) name kept =
      Analysis.ofProperties d o name kept := by
  have hfield : Field.ofProperty d (o.ignoring classes fields) = Field.ofProperty d o := by
    funext p
    rw [Field.ofProperty, Field.ofProperty, resolve_ignoring]
  rw [Analysis.ofProperties, Analysis.ofProperties, hfield]
  rfl

theorem ignoresField_ignoring (name : String) :
    (o.ignoring classes fields).ignoresField name = .ok (fields.contains name) :=
  Options.holdsName_names name fields

theorem keptProperties_ignoring (A : Definition) :
    keptProperties (o.ignoring classes fields) A.properties =
      .ok (A.without fields).properties := by
  rw [keptProperties_eq, keep_eq_ok_iff]
  refine ⟨fun p _ => by rw [ignoresField_ignoring]; rfl, List.filter_congr fun p _ => ?_⟩
  simp [ignoresField_ignoring]

theorem analyze_ignoring (d : Document) (A : Definition) :
    analyze d (o.ignoring classes fields) A =
      .ok (.ofProperties d o A.name (A.without fields).properties) := by
  rw [analyze, keptProperties_ignoring, Except.map, ofProperties_ignoring]

end Model

namespace Generation

open Dart Model Naming Schema

variable {d : Document} {o : Options} {command : String} {classes fields : List String}

theorem enumerationFiles_ignoring (comment : String) (enumerations : List Enumeration) :
    enumerationFiles (o.ignoring classes fields) comment enumerations =
      enumerationFiles o comment enumerations := by
  induction enumerations with
  | nil => rfl
  | cons e rest ih =>
    rw [enumerationFiles, enumerationFiles, ih]
    rfl

theorem filesOf_ignoring (comment : String) (m : Model) :
    filesOf (o.ignoring classes fields) comment m = filesOf o comment m := by
  rw [filesOf, filesOf, enumerationFiles_ignoring]
  rfl

/-- A draft does not depend on which definitions are ignored, and of the properties it sees those
that are left. -/
theorem draftDefinition_ignoring (d : Document) (o : Options) (command : String)
    (classes classes' fields : List String) (A : Definition) :
    draftDefinition d (o.ignoring classes fields) command A =
      draftDefinition d (o.ignoring classes' []) command (A.without fields) := by
  rw [draftDefinition, draftDefinition, analyze_ignoring, analyze_ignoring,
    Definition.without_nil]
  dsimp only
  rw [filesOf_ignoring, filesOf_ignoring]
  rfl

theorem keptDefinitions_ignoring (definitions : List Definition) :
    keptDefinitions (o.ignoring classes fields) definitions =
      .ok (definitions.filter fun A => A.name ∉ classes) := by
  have hignores : ∀ name, (o.ignoring classes fields).ignoresClass name =
      .ok (classes.contains name) := fun name => Options.holdsName_names name classes
  rw [keptDefinitions_eq, keep_eq_ok_iff]
  refine ⟨fun A _ => by rw [hignores]; rfl, List.filter_congr fun A _ => ?_⟩
  simp [hignores]

theorem draftEach_congr {d' : Document} {o' : Options} {f : Definition → Definition}
    (h : ∀ A, draftDefinition d o command A = draftDefinition d' o' command (f A))
    (definitions : List Definition) :
    draftEach d o command definitions = draftEach d' o' command (definitions.map f) := by
  induction definitions with
  | nil => rfl
  | cons A rest ih => rw [List.map_cons, draftEach, draftEach, h, ih]

/-- Nothing stops several drafts if nothing stops any of them. -/
theorem fault_draftEach_eq_none_iff {definitions : List Definition} :
    (draftEach d o command definitions).fault? = none ↔
      ∀ A ∈ definitions, (draftDefinition d o command A).fault? = none := by
  constructor
  · exact fun h A hA => (draftEach_complete h hA).1
  · intro h
    induction definitions with
    | nil => rfl
    | cons A rest ih =>
      obtain ⟨hA, hrest⟩ := List.forall_mem_cons.1 h
      rw [draftEach, Draft.andThen, hA]
      exact ih hrest

theorem build_ignoring (d : Document) (o : Options) (command : String)
    (classes fields : List String) :
    build d (o.ignoring classes fields) command =
      draftEach d (o.ignoring [] fields) command
        (d.definitions.filter fun A => A.name ∉ classes) := by
  rw [build_of_kept (keptDefinitions_ignoring d.definitions),
    draftEach_congr (f := id) (fun A => ?_), List.map_id]
  rw [draftDefinition_ignoring d o command classes [] fields A,
    draftDefinition_ignoring d o command [] [] fields (id A)]
  rfl

theorem build_without (d : Document) (o : Options) (command : String)
    (classes fields : List String) :
    build (d.without fields) (o.ignoring classes []) command =
      draftEach d (o.ignoring [] fields) command
        (d.definitions.filter fun A => A.name ∉ classes) := by
  have hkept : (d.without fields).definitions.filter (fun A => A.name ∉ classes) =
      (d.definitions.filter fun A => A.name ∉ classes).map (·.without fields) := by
    rw [Document.without, List.filter_map]
    rfl
  have hdraft : ∀ A, draftDefinition d (o.ignoring [] fields) command A =
      draftDefinition (d.without fields) (o.ignoring [] []) command (A.without fields) := by
    intro A
    rw [draftDefinition_ignoring d o command [] [] fields A]
    exact draftDefinition_congr (sameNames_without d fields) _ command _
  rw [build_ignoring, hkept, ← draftEach_congr hdraft]

/-- To ignore properties is to delete them from the document. To ignore definitions is to leave out
their files: the others have the files that they have anyway, and their references to an ignored
definition still lead to its model. -/
theorem ignoring_deletes (d : Document) (o : Options) (command : String)
    (classes fields : List String) :
    build d (o.ignoring classes fields) command =
        build (d.without fields) (o.ignoring classes []) command ∧
      (let full := build d (o.ignoring [] fields) command
       let part := build d (o.ignoring classes fields) command
       let files := fun A => (draftDefinition d (o.ignoring [] fields) command A).files
       full.fault? = none → part.fault? = none ∧ full.files = d.definitions.flatMap files ∧
         part.files = (d.definitions.filter fun A => A.name ∉ classes).flatMap files) ∧
      ∀ pointer D, d.resolve? pointer = some D →
        resolveReference d (o.ignoring classes fields) pointer =
          some (.model (typeName D.name) (modelImport o D.name)) := by
  refine ⟨?_, ?_, ?_⟩
  · rw [build_ignoring, build_without]
  · intro full part files hfull
    have hall : full = draftEach d (o.ignoring [] fields) command d.definitions := by
      simpa using build_ignoring d o command [] fields
    have hpart : part = _ := build_ignoring d o command classes fields
    rw [hall] at hfull ⊢
    have hkept : part.fault? = none := by
      rw [hpart, fault_draftEach_eq_none_iff]
      exact fun A hA => fault_draftEach_eq_none_iff.1 hfull A (List.mem_of_mem_filter hA)
    refine ⟨hkept, files_draftEach hfull, ?_⟩
    rw [hpart] at hkept ⊢
    exact files_draftEach hkept
  · intro pointer D hD
    rw [resolveReference, hD]
    rfl

section Ledger

/-- A definition with a reference and a property to ignore. -/
def account : Definition :=
  ⟨"Account", [⟨"owner", .reference "#/definitions/Person" ""⟩,
    ⟨"state", .enumeration [.str "open"] false ""⟩]⟩

def person : Definition :=
  ⟨"Person", [⟨"state", .enumeration [.str "away"] false ""⟩]⟩

def ledger : Document where
  definitions := [account, person]

theorem ignoring_deletes_ledger :
    let part := build ledger (Options.ignoring {} ["Person"] ["state"]) programName
    (build ledger (Options.ignoring {} [] ["state"]) programName).fault? = none ∧
      part = build (ledger.without ["state"]) (Options.ignoring {} ["Person"] []) programName ∧
      part.files = (draftDefinition ledger (Options.ignoring {} [] ["state"]) programName
        account).files ∧
      resolveReference ledger (Options.ignoring {} ["Person"] ["state"]) "#/definitions/Person" =
        some (.model (typeName "Person") (modelImport {} "Person")) := by
  obtain ⟨hproperties, hdefinitions, hreferences⟩ :=
    ignoring_deletes ledger {} programName ["Person"] ["state"]
  have hfull : (build ledger (Options.ignoring {} [] ["state"]) programName).fault? = none := by rfl
  refine ⟨hfull, hproperties, ?_, hreferences _ person rfl⟩
  obtain ⟨-, -, hfiles⟩ := hdefinitions hfull
  simpa [ledger, account, person] using hfiles

end Ledger

end Generation

end DartModels
