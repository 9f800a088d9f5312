import DartModels.Proofs.Dart.Directives
import DartModels.Proofs.Dart.Templates

/-! # Generated files pass the structural check

A declaration is properly nested without its literals and comments, and so is a file whose imports
are. Such a file declares a type and has as many closing brackets as opening ones.
-/

namespace DartModels.Dart

open Generation Model Naming Schema Text

section Analyses

variable {d : Document} {o : Options} {A : Definition} {a : Analysis}

theorem flatField_of_analyze (h : analyze d o A = .ok a) {f : Field} (hf : f ∈ a.model.fields) :
    FlatField f := by
  obtain ⟨p, -, -, rfl⟩ := (mem_fields_iff h).1 hf
  constructor <;> dsimp only [Field.ofProperty]
  · exact isFlat_fieldName p.name
  · exact hasFlatNames_resolve d o p.name p.node

theorem isFlat_name_of_analyze (h : analyze d o A = .ok a) : IsFlat a.model.name := by
  rw [name_of_analyze h]
  exact isFlat_typeName A.name

theorem flatEnumeration_of_analyze (h : analyze d o A = .ok a) {e : Enumeration}
    (he : e ∈ a.model.enumerations) (hscalar : ∀ m ∈ e.members, m.literal.isScalar = true) :
    FlatEnumeration e := by
  obtain ⟨kept, -, rfl⟩ := analysis_eq h
  obtain ⟨p, -, values, rfl⟩ := exists_property_of_mem_enumerations he
  refine ⟨?_, ?_, hscalar⟩
  · rw [Enumeration.name_ofValues]
    exact isFlat_typeName p.name
  · simp only [Enumeration.ofValues, List.forall_mem_map]
    exact fun v _ => isFlat_memberName v.literalText

end Analyses

section Files

variable {o : Options} {command : String} {header body : List String}

theorem suffix_fileText (header body : List String) :
    (unlines body).toList <:+ (fileText header body).toList := by
  cases header with
  | nil => exact List.suffix_rfl
  | cons line rest =>
    rw [fileText, String.toList_append]
    · exact List.suffix_append _ _
    · simp

theorem declaresType_fileText {word : String} (hword : word = "class " ∨ word = "enum ")
    (name : String) (header rest : List String) :
    declaresType (fileText header ((word ++ name ++ " \x7b") :: rest)).toList = true := by
  have hfile : word.toList <:+: (fileText header ((word ++ name ++ " \x7b") :: rest)).toList := by
    refine List.IsInfix.trans (List.IsPrefix.isInfix ?_) (suffix_fileText header _).isInfix
    simp only [unlines_cons, String.toList_append, List.append_assoc]
    exact List.prefix_append _ _
  rw [declaresType, Bool.or_eq_true]
  rcases hword with rfl | rfl
  · exact .inl (occursIn_iff.2 hfile)
  · exact .inr (occursIn_iff.2 hfile)

/-- Nested text that declares a type passes the check. -/
theorem checkStructure_of_nested {s : List Char} (htype : declaresType s = true)
    (h : Nested (code s)) : checkStructure s = .ok () := by
  have hbraces := h.count_eq (c := '\x7b') rfl
  have hparentheses := h.count_eq (c := '(') rfl
  simp [checkStructure, htype, hbraces, hparentheses]

/-- Text that leaves a brace open fails the check. -/
theorem exists_fault_of_turns {s : String} {awaited : List Char} (h : Turns s [] awaited)
    (hbrace : '\x7d' ∈ awaited) : ∃ fault, checkStructure s.toList = .error fault := by
  have hpositive : 0 < awaited.count '\x7d' := List.count_pos_iff.2 hbrace
  have hcount := count_awaitAll (c := '\x7b') rfl h.awaitAll_code
  have hne : (code s.toList).count '\x7b' ≠ (code s.toList).count '\x7d' := by
    rw [List.count_nil] at hcount
    omega
  cases htype : declaresType s.toList with
  | false => exact ⟨.noTypes, by simp [checkStructure, htype]⟩
  | true =>
    refine ⟨.braces ((code s.toList).count '\x7b') ((code s.toList).count '\x7d'), ?_⟩
    simp [checkStructure, htype, hne]

theorem turns_fileText {awaited : List Char} (hheader : Turns (unlines header) [] awaited)
    (hbody : Turns (unlines body) [] []) : Turns (fileText header body) [] awaited := by
  cases header with
  | nil =>
    have hfile := hheader.append (hbody.anywhere awaited)
    rwa [show unlines [] = "" from rfl, String.empty_append] at hfile
  | cons line rest =>
    exact (hheader.append (IsFlat.turns (by decide) awaited)).append (hbody.anywhere awaited)

/-- The header comment is left out of the code as long as the command stays on its line. -/
theorem turns_commentLines (o : Options) (hcommand : '\n' ∉ command.toList) :
    Turns (unlines (commentLines (generationComment o command))) [] [] := by
  unfold generationComment commentLines
  split
  · split
    · exact .nil
    · have hline : '\n' ∉ (" Generated by " ++ programName ++ " v1.0.0 : " ++ command).toList := by
        simp only [String.toList_append, List.mem_append, not_or]
        exact ⟨⟨⟨by decide, by decide⟩, by decide⟩, hcommand⟩
      have hmark : "// Generated by " = "//" ++ " Generated by " := rfl
      have hend : Turns (unlines []) [] [] := .nil
      rw [unlines_cons]
      simpa only [toString, hmark, String.append_assoc] using (turns_comment hline []).append hend
  · exact .nil

theorem turns_importLines {m : Model} (h : ∀ path ∈ m.imports, Turns (importLine path) [] []) :
    Turns (unlines (importLines o m)) [] [] := by
  have hconvert : Turns (importLine convertImport) [] [] := turns_importLine (by decide) []
  have hcollection : Turns (importLine collectionImport) [] [] := turns_importLine (by decide) []
  have hlibraries : Turns (unlines (if usesCollection o m.fields then
      ["", importLine collectionImport] else [])) [] [] := by
    split
    · exact Turns.nil.cons hcollection.line
    · exact .nil
  have hpaths : Turns (unlines (if m.imports.isEmpty then [] else
      "" :: m.imports.map importLine)) [] [] := by
    split
    · exact .nil
    · refine Turns.nil.cons (turns_unlines_of_forall ?_ [])
      simpa only [List.forall_mem_map] using h
  exact (hconvert.line.lines hlibraries).lines hpaths

end Files

section Checks

variable {d : Document} {o : Options} {A : Definition} {a : Analysis} {command : String}

/-- The imports of a model alone decide which brackets its file leaves open. -/
theorem turns_modelFile (h : analyze d o A = .ok a) (hcommand : '\n' ∉ command.toList)
    {awaited : List Char} (himports : Turns (unlines (importLines o a.model)) [] awaited) :
    Turns (modelFile o (generationComment o command) a.model) [] awaited :=
  turns_fileText ((turns_commentLines o hcommand).lines himports)
    (turns_classLines (isFlat_name_of_analyze h) (fun _ => flatField_of_analyze h) o)

/-- Nothing but an import can make the file of a model fail the check. -/
theorem checkStructure_modelFile (h : analyze d o A = .ok a) (hcommand : '\n' ∉ command.toList)
    (himports : ∀ path ∈ a.model.imports, Turns (importLine path) [] []) :
    checkStructure (modelFile o (generationComment o command) a.model).toList = .ok () := by
  have hfile := turns_modelFile h hcommand (turns_importLines himports)
  refine checkStructure_of_nested ?_ hfile.nested
  unfold modelFile classLines
  simp only [List.cons_append]
  exact declaresType_fileText (.inl rfl) _ _ _

theorem checkStructure_enumFile (h : analyze d o A = .ok a) (hcommand : '\n' ∉ command.toList)
    {e : Enumeration} (he : e ∈ a.model.enumerations)
    (hscalar : ∀ m ∈ e.members, m.literal.isScalar = true) :
    checkStructure (enumFile o (generationComment o command) e).toList = .ok () := by
  have henum := (flatEnumeration_of_analyze h he hscalar).turns_enumLines o.wireValues.holds
  refine checkStructure_of_nested ?_ (turns_fileText (turns_commentLines o hcommand) henum).nested
  unfold enumFile enumLines
  simp only [List.cons_append]
  exact declaresType_fileText (.inr rfl) _ _ _

/-- Whatever names, keys and literals a schema holds, the declarations rendered for a definition are
properly nested once literals and comments are left out, as long as enumerations list scalars. So
every enumeration file, and every model file without imports of its own, passes the check. -/
theorem declarations_nested (d : Document) (o : Options) (A : Definition)
    (h : analyze d o A = .ok a) :
    let header := generationComment o programName
    Nested (code (unlines (classLines o a.model.name a.model.fields)).toList) ∧
      (a.model.imports = [] → checkStructure (modelFile o header a.model).toList = .ok ()) ∧
      ∀ e ∈ a.model.enumerations, (∀ m ∈ e.members, m.literal.isScalar = true) →
        Nested (code (unlines (enumLines o.wireValues.holds e)).toList) ∧
          checkStructure (enumFile o header e).toList = .ok () := by
  intro header
  have hcommand : '\n' ∉ programName.toList := by decide
  refine ⟨?_, fun himports => ?_, fun e he hscalar => ⟨?_, ?_⟩⟩
  · exact (turns_classLines (isFlat_name_of_analyze h) (fun _ => flatField_of_analyze h) o).nested
  · refine checkStructure_modelFile h hcommand ?_
    rw [himports]
    exact fun path hpath => absurd hpath List.not_mem_nil
  · exact ((flatEnumeration_of_analyze h he hscalar).turns_enumLines _).nested
  · exact checkStructure_enumFile h hcommand he hscalar

/-- A property whose name is full of quotes, brackets and comment marks. -/
def hostileModel : Definition :=
  ⟨"it's \x7b", [⟨"'\x7d\"\"\"//$(\\", .primitive (some "string") ""⟩]⟩

def hostileSwitch : Definition :=
  ⟨"Switch", [⟨"state '\x7b", .enumeration [.str "'\x7b", .str "\\(", .int 3, .null] false ""⟩]⟩

def hostile : Document where
  definitions := [hostileModel, hostileSwitch]

theorem declarations_nested_hostile :
    (∃ a, analyze hostile {} hostileModel = .ok a ∧
      checkStructure (modelFile {} (generationComment {} programName) a.model).toList = .ok ()) ∧
    ∃ a, analyze hostile {} hostileSwitch = .ok a ∧ ∃ e ∈ a.model.enumerations,
      Nested (code (unlines (enumLines false e)).toList) ∧
        checkStructure (enumFile {} (generationComment {} programName) e).toList = .ok () := by
  constructor
  · have ha : analyze hostile {} hostileModel =
        .ok (.ofProperties hostile {} hostileModel.name hostileModel.properties) := by rfl
    exact ⟨_, ha, (declarations_nested _ _ _ ha).2.1 rfl⟩
  · have ha : analyze hostile {} hostileSwitch =
        .ok (.ofProperties hostile {} hostileSwitch.name hostileSwitch.properties) := by rfl
    have he : .ofValues "state '\x7b" [.str "'\x7b", .str "\\(", .int 3, .null] ∈
        (Analysis.ofProperties hostile {} hostileSwitch.name
          hostileSwitch.properties).model.enumerations :=
      mem_enumerations _ List.mem_cons_self List.mem_cons_self
    refine ⟨_, ha, _, he, (declarations_nested _ _ _ ha).2.2 _ he ?_⟩
    simp [Enumeration.ofValues, Json.isScalar]

end Checks

end DartModels.Dart
