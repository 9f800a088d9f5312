import DartModels.Proofs.Dart.StructuralCheck
import DartModels.Proofs.Generation.Writes

/-! # Import directives of generated files

Each import of a model is a line of its file. A run can fail the structural check only over a path
that needs escapes in a literal, as long as enumerations list scalars.
-/

namespace DartModels

open Dart Files Model Naming Schema

namespace Dart

theorem fileText_of_ne_nil {header : List String} (h : header ≠ []) (body : List String) :
    fileText header body = unlines (header ++ "" :: body) := by
  have hblank : "" ++ "\n" = "\n" := rfl
  rw [fileText, unlines_append, unlines_cons, hblank, String.append_assoc]
  exact h

/-- Each import of a model is a line of its file. -/
theorem exists_line_of_mem_imports (o : Options) (comment : String) {m : Model} {path : String}
    (h : path ∈ m.imports) :
    ∃ upper lower, modelFile o comment m = unlines (upper ++ importLine path :: lower) := by
  have hne : m.imports.isEmpty = false := by
    rw [List.isEmpty_eq_false_iff]
    exact List.ne_nil_of_mem h
  have hline : importLine path ∈ importLines o m := by
    simp only [importLines, hne, List.mem_append]
    exact .inr (List.mem_cons_of_mem _ (List.mem_map_of_mem h))
  have hheader : importLine path ∈ commentLines comment ++ importLines o m :=
    List.mem_append_right _ hline
  obtain ⟨upper, lower, hsplit⟩ := List.append_of_mem hheader
  refine ⟨upper, lower ++ "" :: classLines o m.name m.fields, ?_⟩
  rw [modelFile, fileText_of_ne_nil (List.ne_nil_of_mem hheader), hsplit, List.append_assoc,
    List.cons_append]

end Dart

namespace Generation

variable {d : Document} {o : Options} {command : String} {root : Path}

theorem checkStructure_of_write {target : Path} {content : String} {check : Bool}
    {before after : Disk} {fault : StructureFault}
    (h : write target content check before = (.error (.code fault), after)) :
    checkStructure content.toList = .error fault := by
  rw [write, writeBy] at h
  split at h
  · next why hcheck =>
    split at hcheck
    · cases h
      exact hcheck
    · cases hcheck
  · generalize replaceFile target _ before = r at h
    obtain ⟨result, disk⟩ := r
    cases result <;> cases h

/-- A run that stops at the structural check was about to write a file that fails it. -/
theorem exists_file_of_code {disk : Disk} {fault : StructureFault}
    (h : (generate d o command root disk).1 = .error (.code fault)) :
    ∃ f ∈ (build d o command).files, checkStructure f.content.toList = .error fault := by
  obtain ⟨done, stop?, ho, -, hr⟩ := generate_outcome d o command root disk
  rw [h] at hr
  cases ho with
  | complete hw =>
    cases hfault : (build d o command).fault? <;> rw [hfault] at hr <;> cases hr
  | @stopped _ _ file _ _ why hfiles hw hf =>
    have hmem : file ∈ (build d o command).files := by
      rw [hfiles]
      exact List.mem_append_right _ List.mem_cons_self
    cases why with
    | code why =>
      cases hr
      exact ⟨file, hmem, checkStructure_of_write hf⟩
    | access why => cases why <;> cases hr

/-- An import line reads as the word, one literal that stands for the path, and a semicolon, if and
only if the path needs no escapes in a literal. A run that fails the structural check keeps a
definition with another import, as long as enumerations list scalars. -/
theorem import_directives (d : Document) (o : Options) (command : String) (root : Path)
    (disk : Disk) (hcommand : '\n' ∉ command.toList) :
    (∀ A a, analyze d o A = .ok a → ∀ path ∈ a.model.imports,
      (∃ upper lower, modelFile o (generationComment o command) a.model =
        unlines (upper ++ importLine path :: lower)) ∧
      (ImportsPath (importLine path) path ↔ IsUnescaped path)) ∧
    ∀ fault, (generate d o command root disk).1 = .error (.code fault) →
      ∃ A ∈ d.definitions, o.ignoresClass A.name = .ok false ∧ ∃ a, analyze d o A = .ok a ∧
        ((∃ path ∈ a.model.imports, ¬ IsUnescaped path) ∨
          ∃ e ∈ a.model.enumerations, ∃ m ∈ e.members, m.literal.isScalar = false) := by
  constructor
  · intro A a ha path hpath
    exact ⟨exists_line_of_mem_imports o _ hpath, importsPath_importLine_iff⟩
  · intro fault h
    obtain ⟨f, hf, hcheck⟩ := exists_file_of_code h
    obtain ⟨A, hA, hkept, a, files, ha, hfiles, hmem⟩ := exists_filesOf_of_mem_build hf
    refine ⟨A, hA, hkept, a, ha, ?_⟩
    by_contra! hall
    obtain ⟨himports, hscalar⟩ := hall
    rcases (mem_filesOf hfiles f).1 hmem with ⟨e, he, -, hcontent⟩ | rfl
    · rw [hcontent, checkStructure_enumFile ha hcommand he ?_] at hcheck
      · cases hcheck
      · simpa using hscalar e he
    · have himport : ∀ path ∈ a.model.imports, Turns (importLine path) [] [] :=
        fun path hpath => turns_importLine (himports path hpath) []
      rw [checkStructure_modelFile ha hcommand himport] at hcheck
      cases hcheck

/-- A model that refers to another one. -/
def linked : Document where
  definitions := [⟨"A", [⟨"b", .reference "#/definitions/B" ""⟩]⟩, ⟨"B", []⟩]

theorem import_directives_linked :
    '\n' ∉ programName.toList ∧ ∃ a, analyze linked {} (linked.definitions.head nofun) = .ok a ∧
      modelImport {} "B" ∈ a.model.imports ∧
      ImportsPath (importLine (modelImport {} "B")) (modelImport {} "B") := by
  have hcommand : '\n' ∉ programName.toList := by decide
  have ha : analyze linked {} (linked.definitions.head nofun) =
      .ok (.ofProperties linked {} "A" [⟨"b", .reference "#/definitions/B" ""⟩]) := by rfl
  have hresolved : linked.resolve? "#/definitions/B" = some ⟨"B", []⟩ := by rfl
  have hwalk : TypeRef.model (typeName "B") (modelImport {} "B") ∈
      (resolve linked {} "b" (.reference "#/definitions/B" "")).walk := by
    simp [resolve, resolveReference, hresolved, TypeRef.walk]
  have hother : modelImport {} "B" ≠ modelImport {} "A" := by decide +kernel
  have hpath : modelImport {} "B" ∈ (Analysis.ofProperties linked {} "A"
      [⟨"b", .reference "#/definitions/B" ""⟩]).model.imports :=
    Or.resolve_right (mem_imports "A" List.mem_cons_self hwalk rfl) hother
  refine ⟨hcommand, _, ha, hpath, ?_⟩
  have himports := (import_directives linked {} programName ⟨0, []⟩ (.ofTree ⟨[]⟩) hcommand).1
  exact (himports _ _ ha _ hpath).2.2 (by decide +kernel)

/-- An enumeration that is named with an apostrophe. -/
def apostrophe : Document where
  definitions := [⟨"B", [⟨"it's", .enumeration [.str "on"] false ""⟩]⟩]

/-- The apostrophe of a name ends the literal in the import line. -/
theorem not_importsPath_apostrophe :
    ∃ a, analyze apostrophe {} (apostrophe.definitions.head nofun) = .ok a ∧
      ∃ path ∈ a.model.imports, ¬ ImportsPath (importLine path) path := by
  have ha : analyze apostrophe {} (apostrophe.definitions.head nofun) =
      .ok (.ofProperties apostrophe {} "B" [⟨"it's", .enumeration [.str "on"] false ""⟩]) := by rfl
  have hwalk : TypeRef.enumeration (.ofValues "it's" [.str "on"]) (enumerationImport {} "it's") ∈
      (resolve apostrophe {} "it's" (.enumeration [.str "on"] false "")).walk := List.mem_cons_self
  have hother : enumerationImport {} "it's" ≠ modelImport {} "B" := by decide +kernel
  have hpath : enumerationImport {} "it's" ∈ (Analysis.ofProperties apostrophe {} "B"
      [⟨"it's", .enumeration [.str "on"] false ""⟩]).model.imports :=
    Or.resolve_right (mem_imports "B" List.mem_cons_self hwalk rfl) hother
  refine ⟨_, ha, _, hpath, ?_⟩
  rw [importsPath_importLine_iff]
  decide +kernel

end Generation

end DartModels
