import DartModels.Proofs.Generation.Drafts

/-! # Headers of files

The command gets into the generated files as their header and in no other way. For any command, the
files are the same bodies, each of them behind the header.
-/

namespace DartModels.Generation

open Dart Model Schema

/-- A body behind its header, which stands on lines of its own if there is one. -/
def headed (header : String) (body : Path × String) : GeneratedFile where
  path := body.1
  content := if header = "" then body.2 else header ++ "\n" ++ body.2

variable {d : Document} {o : Options}

theorem generationComment_eq_empty_iff (o : Options) (command : String) :
    generationComment o command = "" ↔ o.generationComment.holds = false := by
  unfold generationComment
  split
  · next h => simp [h, toString, String.append_eq_empty_iff]
  · next h => simp [h]

theorem generationComment_ne_empty (h : o.generationComment.holds = true) (command : String) :
    generationComment o command ≠ "" := by
  rw [ne_eq, generationComment_eq_empty_iff, h]
  decide

/-- The text of a file behind its header. -/
theorem exists_fileText_eq (o : Options) (lines body : List String) :
    ∃ text, ∀ command, fileText (commentLines (generationComment o command) ++ lines) body =
      if generationComment o command = "" then text
      else generationComment o command ++ "\n" ++ text := by
  cases hheader : o.generationComment.holds with
  | false =>
    refine ⟨fileText lines body, fun command => ?_⟩
    rw [(generationComment_eq_empty_iff o command).2 hheader, commentLines, if_pos rfl, if_pos rfl,
      List.nil_append]
  | true =>
    refine ⟨unlines lines ++ "\n" ++ unlines body, fun command => ?_⟩
    have hne := generationComment_ne_empty hheader command
    rw [commentLines, if_neg hne, if_neg hne, List.singleton_append, fileText, unlines_cons]
    · simp only [String.append_assoc]
    · exact fun h => List.cons_ne_nil _ _ h

/-- The files of enumerations, behind any header. -/
theorem exists_enumerationFiles_eq (o : Options) (enumerations : List Enumeration) :
    ∃ bodies : Except Options.Fault (List (Path × String)), ∀ command,
      enumerationFiles o (generationComment o command) enumerations =
        bodies.map fun bodies => bodies.map (headed (generationComment o command)) := by
  induction enumerations with
  | nil => exact ⟨.ok [], fun command => rfl⟩
  | cons e rest ih =>
    obtain ⟨bodies, hrest⟩ := ih
    obtain ⟨text, htext⟩ := exists_fileText_eq o [] (enumLines o.wireValues.holds e)
    cases hpath : enumerationPath o e.stem with
    | error fault =>
      refine ⟨.error fault, fun command => ?_⟩
      rw [enumerationFiles, hpath]
      rfl
    | ok path =>
      refine ⟨bodies.map ((path, text) :: ·), fun command => ?_⟩
      have hfile : enumFile o (generationComment o command) e =
          (headed (generationComment o command) (path, text)).content := by
        rw [enumFile, ← List.append_nil (commentLines _), htext]
        rfl
      rw [enumerationFiles, hpath]
      dsimp only
      rw [hrest, hfile]
      cases bodies <;> rfl

theorem exists_filesOf_eq (o : Options) (m : Model) :
    ∃ bodies : Except Options.Fault (List (Path × String)), ∀ command,
      filesOf o (generationComment o command) m =
        bodies.map fun bodies => bodies.map (headed (generationComment o command)) := by
  obtain ⟨enums, henums⟩ := exists_enumerationFiles_eq o m.enumerations
  obtain ⟨text, htext⟩ := exists_fileText_eq o (importLines o m) (classLines o m.name m.fields)
  refine ⟨enums.map (· ++ [(modelPath o m.stem, text)]), fun command => ?_⟩
  have hfile : modelFile o (generationComment o command) m =
      (headed (generationComment o command) (modelPath o m.stem, text)).content := htext command
  rw [filesOf, henums, hfile]
  cases enums with
  | error fault => rfl
  | ok bodies => simp [Except.map, headed]

/-- Drafts that differ in the headers of their files only. -/
def SameBodies (o : Options) (draft : String → Draft) : Prop :=
  ∃ (bodies : List (Path × String)) (fault? : Option Options.Fault), ∀ command,
    (draft command).files = bodies.map (headed (generationComment o command)) ∧
      (draft command).fault? = fault?

theorem SameBodies.failed (o : Options) (fault : Options.Fault) :
    SameBodies o fun _ => .failed fault :=
  ⟨[], some fault, fun _ => ⟨rfl, rfl⟩⟩

theorem SameBodies.andThen {a b : String → Draft} (ha : SameBodies o a) (hb : SameBodies o b) :
    SameBodies o fun command => (a command).andThen (b command) := by
  obtain ⟨before, fault?, ha⟩ := ha
  obtain ⟨after, last?, hb⟩ := hb
  cases fault? with
  | some fault =>
    refine ⟨before, some fault, fun command => ?_⟩
    obtain ⟨hfiles, hfault⟩ := ha command
    simp only [Draft.andThen, hfault, hfiles, and_self]
  | none =>
    refine ⟨before ++ after, last?, fun command => ?_⟩
    obtain ⟨hfiles, hfault⟩ := ha command
    obtain ⟨hfiles', hfault'⟩ := hb command
    simp only [Draft.andThen, hfault]
    exact ⟨by rw [hfiles, hfiles', List.map_append], hfault'⟩

theorem sameBodies_draftDefinition (d : Document) (o : Options) (A : Definition) :
    SameBodies o fun command => draftDefinition d o command A := by
  unfold draftDefinition
  cases ha : analyze d o A with
  | error fault => exact .failed o fault
  | ok analysis =>
    obtain ⟨bodies, hfiles⟩ := exists_filesOf_eq o analysis.model
    cases bodies with
    | error fault =>
      refine ⟨[], some fault, fun command => ?_⟩
      simp only [hfiles command, Except.map, List.map_nil, and_self]
    | ok bodies =>
      refine ⟨bodies, none, fun command => ?_⟩
      simp only [hfiles command, Except.map, and_self]

/-- Whatever the command is, a document has the same files behind its header. -/
theorem sameBodies_build (d : Document) (o : Options) : SameBodies o (build d o) := by
  cases hkept : keptDefinitions o d.definitions with
  | error fault =>
    have hbuild : build d o = fun _ => .failed fault := funext fun _ => by rw [build, hkept]
    rw [hbuild]
    exact .failed o fault
  | ok kept =>
    have hbuild : build d o = fun command => draftEach d o command kept :=
      funext fun _ => build_of_kept hkept
    rw [hbuild]
    clear hbuild hkept
    induction kept with
    | nil => exact ⟨[], none, fun _ => ⟨rfl, rfl⟩⟩
    | cons A rest ih => exact (sameBodies_draftDefinition d o A).andThen ih

end DartModels.Generation
