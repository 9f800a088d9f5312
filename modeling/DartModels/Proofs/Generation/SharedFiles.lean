import DartModels.Proofs.Generation.Collisions
import DartModels.Proofs.Generation.Imports
import DartModels.Proofs.Naming.CanonicalStem

/-! # Shared files

Two names share a file if the paths made of their stems are the same, which for names without a
slash takes the same stem. A stem determines the type name, so whichever of the two a shared file
is generated for, it declares the type under the name that fields of the other type use.
-/

namespace DartModels.Generation

open Model Naming Schema

/-- Two definitions whose models have one path. -/
def ShareModelPath (o : Options) (a b : String) : Prop :=
  modelPath o (fileStem a) = modelPath o (fileStem b)

/-- Two properties whose inline enumerations have one path. -/
def ShareEnumerationPath (o : Options) (a b : String) : Prop :=
  ∃ path, enumerationPath o (fileStem a) = .ok path ∧ enumerationPath o (fileStem b) = .ok path

instance (o : Options) (a b : String) : Decidable (ShareModelPath o a b) :=
  inferInstanceAs (Decidable (_ = _))

section Paths

variable {o : Options} {a b : String}

theorem notMem_fileStem {name : String} (h : IsAscii name.toList) (hslash : '/' ∉ name.toList) :
    '/' ∉ (fileStem name).toList := by
  intro hmem
  rw [fileStem, String.toList_ofList] at hmem
  exact hslash (mem_of_mem_stem h hmem (by decide) (by decide))

theorem rootSlashes_of_notMem {s : List Char} (h : '/' ∉ s) : Path.rootSlashes s = 0 := by
  cases s with
  | nil => rfl
  | cons c rest => exact Path.rootSlashes_of_head fun hc => h (hc ▸ List.mem_cons_self)

theorem ofString_of_notMem (h : '/' ∉ a.toList) :
    Path.ofString a = ⟨0, [a].filter fun segment => segment != "" && segment != "."⟩ := by
  rw [Path.ofString, rootSlashes_of_notMem h, Text.split,
    Text.segments_of_forall (Path.not_slash_of_notMem h)]
  simp

/-- The extension may bring segments of its own, which are the same for all stems. -/
theorem exists_ofString_fileName (o : Options) : ∃ (ending : String) (rest : List String),
    ∀ stem : String, '/' ∉ stem.toList → Path.ofString (o.fileName stem) =
      ⟨0, [stem ++ "." ++ ending].filter (· != ".") ++ rest⟩ := by
  obtain ⟨piece, pieces, hsegments⟩ :=
    List.exists_cons_of_ne_nil (Text.segments_ne_nil (· == '/') o.fileExtension.display.toList)
  refine ⟨String.ofList piece, (pieces.map String.ofList).filter fun segment =>
    segment != "" && segment != ".", fun stem hstem => ?_⟩
  have htext : (o.fileName stem).toList =
      (stem.toList ++ ['.']) ++ o.fileExtension.display.toList := by
    rw [toList_fileName, List.append_assoc, List.singleton_append]
  have hfront : '/' ∉ stem.toList ++ ['.'] := by simp [hstem]
  have hroot : Path.rootSlashes (o.fileName stem).toList = 0 := by
    rw [htext]
    cases hchars : stem.toList with
    | nil => exact Path.rootSlashes_of_head (by decide)
    | cons c rest =>
      refine Path.rootSlashes_of_head ?_
      rintro rfl
      exact hstem (hchars ▸ List.mem_cons_self)
  have hpiece : String.ofList (stem.toList ++ ['.'] ++ piece) =
      stem ++ "." ++ String.ofList piece := by
    apply String.toList_injective
    simp
  have hne : (stem ++ "." ++ String.ofList piece != "") = true := by
    simp [bne_iff_ne]
  rw [Path.ofString, hroot, Text.split, htext,
    Text.segments_append_of_forall (Path.not_slash_of_notMem hfront) hsegments, List.map_cons,
    hpiece]
  by_cases hdot : stem ++ "." ++ String.ofList piece = "." <;>
    simp [hne, hdot]

/-- The last segment, where there is one, tells the stem; a path without it has the empty stem. -/
theorem eq_of_append_fileName {before after : List String} (ending : String)
    (h : before ++ [a ++ "." ++ ending].filter (· != ".") =
      after ++ [b ++ "." ++ ending].filter (· != "."))
    (ha : a = "" → before = []) (hb : b = "" → after = []) : a = b := by
  have hempty {s : String} (hs : s ++ "." ++ ending = ".") : s = "" := by
    have hlength := congrArg String.length hs
    have hdot : ".".length = 1 := rfl
    rw [String.length_append, String.length_append] at hlength
    exact String.length_eq_zero_iff.1 (by omega)
  by_cases hadot : a ++ "." ++ ending = "." <;> by_cases hbdot : b ++ "." ++ ending = "."
  · rw [hempty hadot, hempty hbdot]
  · simp [hadot, hbdot, ha (hempty hadot)] at h
  · simp [hadot, hbdot, hb (hempty hbdot)] at h
  · simp only [List.filter_cons, bne_iff_ne, ne_eq, hadot, hbdot, not_false_eq_true, if_true,
      List.filter_nil] at h
    have hlast := (List.cons.inj (List.append_inj_right' h rfl)).1
    exact (String.append_left_inj _).1 ((String.append_left_inj _).1 hlast)

theorem eq_of_modelPath_eq (ha : '/' ∉ a.toList) (hb : '/' ∉ b.toList)
    (h : modelPath o a = modelPath o b) : a = b := by
  obtain ⟨ending, rest, hname⟩ := exists_ofString_fileName o
  rw [modelPath, modelPath, hname a ha, hname b hb, ofString_of_notMem ha,
    ofString_of_notMem hb] at h
  have hsegments := congrArg Path.segments h
  simp only [Path.join, Path.isAbsolute, bne_self_eq_false, Bool.false_eq_true, if_false,
    ← List.append_assoc] at hsegments
  refine eq_of_append_fileName ending (List.append_cancel_right hsegments) ?_ ?_
  · rintro rfl
    rfl
  · rintro rfl
    rfl

theorem eq_of_enumerationPath_eq (ha : '/' ∉ a.toList) (hb : '/' ∉ b.toList) {path : Path}
    (hpath : enumerationPath o a = .ok path) (h : enumerationPath o b = .ok path) : a = b := by
  obtain ⟨ending, rest, hname⟩ := exists_ofString_fileName o
  rw [enumerationPath] at hpath h
  cases hfolder : o.enumsFolder with
  | str folder =>
    rw [hfolder] at hpath h
    dsimp only at hpath h
    rw [hname a ha] at hpath
    rw [hname b hb] at h
    have hsegments := congrArg Path.segments (Except.ok.inj (hpath.trans h.symm))
    simp only [Path.join, Path.isAbsolute, bne_self_eq_false, Bool.false_eq_true, if_false,
      List.append_cancel_left_eq, List.append_cancel_right_eq] at hsegments
    have hfiles := (List.nil_append _).trans (hsegments.trans (List.nil_append _).symm)
    exact eq_of_append_fileName ending hfiles (fun _ => rfl) fun _ => rfl
  | _ => simp [hfolder] at h

/-- Names without a slash share a file only if they have the same stem. -/
theorem fileStem_eq_of_shared (ha : IsAscii a.toList) (hb : IsAscii b.toList)
    (haslash : '/' ∉ a.toList) (hbslash : '/' ∉ b.toList)
    (h : ShareModelPath o a b ∨ ShareEnumerationPath o a b) : fileStem a = fileStem b := by
  have hastem := notMem_fileStem ha haslash
  have hbstem := notMem_fileStem hb hbslash
  rcases h with h | ⟨path, hpath, h⟩
  · exact eq_of_modelPath_eq hastem hbstem h
  · exact eq_of_enumerationPath_eq hastem hbstem hpath h

end Paths

section Lines

theorem eq_nil_of_prefix_newline {word rest : List Char} (hword : '\n' ∉ word)
    (h : word <+: '\n' :: rest) : word = [] := by
  cases word with
  | nil => rfl
  | cons c word =>
    rw [List.cons_prefix_cons] at h
    exact absurd (h.1 ▸ List.mem_cons_self) hword

theorem infix_or_infix_of_newline {word a b : List Char} (hword : '\n' ∉ word)
    (h : word <:+: a ++ '\n' :: b) : word <:+: a ∨ word <:+: b := by
  rw [List.infix_append_iff, List.infix_cons_iff] at h
  rcases h with h | (h | h) | ⟨front, back, rfl, hfront, hback⟩
  · exact .inl h
  · rw [eq_nil_of_prefix_newline hword h]
    exact .inl List.nil_infix
  · exact .inr h
  · rw [eq_nil_of_prefix_newline (fun hback => hword (List.mem_append_right _ hback)) hback,
      List.append_nil]
    exact .inl hfront.isInfix

/-- A word without line ends occurs in a file only if it occurs in a line of it. -/
theorem exists_line_of_infix {word : List Char} {lines : List String} (hne : word ≠ [])
    (hword : '\n' ∉ word) (h : word <:+: (Dart.unlines lines).toList) :
    ∃ line ∈ lines, word <:+: line.toList := by
  induction lines with
  | nil => exact absurd (List.infix_nil.1 h) hne
  | cons line rest ih =>
    rw [Dart.unlines_cons, String.append_assoc, String.toList_append, String.toList_append] at h
    rcases infix_or_infix_of_newline hword h with h | h
    · exact ⟨line, List.mem_cons_self, h⟩
    · obtain ⟨other, hother, h⟩ := ih h
      exact ⟨other, List.mem_cons_of_mem _ hother, h⟩

/-- A declared type opens a line of the file. -/
theorem exists_line_of_declares {name : String} {header body : List String}
    (hname : '\n' ∉ name.toList) (h : Dart.Declares (Dart.fileText header body) name) :
    ∃ line ∈ header ++ "" :: body, (name ++ " \x7b").toList <:+: line.toList := by
  obtain ⟨opening, hopening, front, after, -, hdeclared⟩ := h
  obtain ⟨before, hbefore, htext⟩ := Dart.fileText_eq_unlines header body
  have hopened : (name ++ " \x7b").toList <:+: opening.toList := by
    rcases List.mem_pair.1 hopening with rfl | rfl
    · exact ⟨"class ".toList, [], by simp [toString]⟩
    · exact ⟨"enum ".toList, [], by simp [toString]⟩
  have hin : (name ++ " \x7b").toList <:+: (Dart.unlines (before ++ body)).toList := by
    rw [← htext, hdeclared, Dart.unlines_append, Dart.unlines_cons]
    refine hopened.trans ⟨(Dart.unlines front).toList, ("\n" ++ Dart.unlines after).toList, ?_⟩
    simp only [String.toList_append, List.append_assoc]
  obtain ⟨line, hline, hoccurs⟩ := exists_line_of_infix (by simp) (by simp [hname]) hin
  refine ⟨line, ?_, hoccurs⟩
  rcases List.mem_append.1 hline with hline | hline
  · rcases hbefore line hline with hline | rfl
    · exact List.mem_append_left _ hline
    · exact List.mem_append_right _ List.mem_cons_self
  · exact List.mem_append_right _ (List.mem_cons_of_mem _ hline)

theorem content_modelFileOf (o : Options) (command : String) (a : Analysis) :
    (modelFileOf o command a).content =
      Dart.fileText (Dart.commentLines (generationComment o command) ++ Dart.importLines o a.model)
        (Dart.classLines o a.model.name a.model.fields) := rfl

end Lines

/-- What is generated for the name `a` declares the types that fields get from the name `b`, under
the names that the fields use: the model of a definition so called wherever a property refers to
it, and the enumeration of a property so called. -/
structure DeclaresTypesOf (a b : String) : Prop where
  model : ∀ {d : Document} {o : Options} {command : String} {A B : Definition} {analysis : Analysis}
    {property : String} {node : Node} {name path : String}, A.name = a → B.name = b →
    analyze d o A = .ok analysis → node.referenced? d = some B →
    TypeRef.model name path ∈ (resolve d o property node).walk →
    Dart.Declares (modelFileOf o command analysis).content name
  enumeration : ∀ {d : Document} {o : Options} {command : String} {values : List Json} {node : Node}
    {e : Enumeration} {path : String}, TypeRef.enumeration e path ∈ (resolve d o b node).walk →
    Dart.Declares (Dart.enumFile o (generationComment o command) (.ofValues a values)) e.name

theorem declaresTypesOf {a b : String} (h : typeName a = typeName b) : DeclaresTypesOf a b where
  model {d o command A B analysis property node name path} hA hB ha hnode hT := by
    rcases mem_walk_resolve hT rfl with ⟨D, hD, hmodel⟩ | ⟨values, henum⟩
    · obtain rfl : B = D := Option.some.inj (hnode.symm.trans hD)
      rw [(TypeRef.model.inj hmodel).1, hB, ← h, ← hA, ← name_of_analyze ha]
      exact Dart.declares_modelFile o command analysis.model
    · cases henum
  enumeration {d o command values node e path} hT := by
    rcases mem_walk_resolve hT rfl with ⟨D, -, hmodel⟩ | ⟨others, henum⟩
    · cases hmodel
    · rw [(TypeRef.enumeration.inj henum).1, Enumeration.name_ofValues, ← h,
        ← Enumeration.name_ofValues a values]
      exact Dart.declares_enumFile o command _

/-- The stem of an ASCII name is canonical and has the type case of the name. Names with the same
stem have the same type name, so what is generated for one of them declares the types of the other;
and names without a slash share a file only if they have the same stem. -/
theorem stem_determines_declared_types {a b : String} (ha : IsAscii a.toList)
    (hb : IsAscii b.toList) :
    (IsStem (fileStem a).toList ∧ fileStem (fileStem a) = fileStem a ∧
      typeCase (fileStem a).toList = typeCase a.toList) ∧
      (fileStem a = fileStem b → typeName a = typeName b ∧ DeclaresTypesOf a b) ∧
      ('/' ∉ a.toList → '/' ∉ b.toList → ∀ o, ShareModelPath o a b ∨ ShareEnumerationPath o a b →
        typeName a = typeName b ∧ DeclaresTypesOf a b) := by
  have hstem : (fileStem a).toList = stem a.toList := by rw [fileStem, String.toList_ofList]
  have hnames (h : fileStem a = fileStem b) : typeName a = typeName b ∧ DeclaresTypesOf a b := by
    have hname := typeName_eq_of_fileStem_eq ha hb h
    exact ⟨hname, declaresTypesOf hname⟩
  refine ⟨⟨?_, fileStem_fileStem ha, ?_⟩, hnames, fun haslash hbslash o h => ?_⟩
  · rw [hstem]
    exact isStem_stem a.toList
  · rw [hstem, typeCase_stem ha]
  · exact hnames (fileStem_eq_of_shared ha hb haslash hbslash h)

/-- The file of the second of two definitions that share it declares the type that references to
the first one use. -/
theorem stem_determines_declared_types_twins :
    (IsAscii "home_address".toList ∧ '/' ∉ "home_address".toList) ∧
      (IsAscii "HomeAddress".toList ∧ '/' ∉ "HomeAddress".toList) ∧
      ShareModelPath {} "home_address" "HomeAddress" ∧
      ∃ A ∈ twins.definitions, A.name = "home_address" ∧ ∃ a, analyze twins {} A = .ok a ∧
        Dart.Declares (modelFileOf {} "" a).content (typeName "HomeAddress") := by
  have hshare : ShareModelPath {} "home_address" "HomeAddress" := by decide +kernel
  have hresolved : (Node.reference "#/definitions/HomeAddress" "").referenced? twins =
      some ⟨"HomeAddress", []⟩ := by rfl
  have hwalk : TypeRef.model (typeName "HomeAddress") (modelImport {} "HomeAddress") ∈
      (resolve twins {} "home" (.reference "#/definitions/HomeAddress" "")).walk :=
    List.mem_cons_self
  have hlower : IsAscii "home_address".toList ∧ '/' ∉ "home_address".toList := by decide
  have hupper : IsAscii "HomeAddress".toList ∧ '/' ∉ "HomeAddress".toList := by decide
  obtain ⟨-, -, hshared⟩ := stem_determines_declared_types hlower.1 hupper.1
  obtain ⟨-, hdeclares⟩ := hshared hlower.2 hupper.2 {} (.inl hshare)
  have hmem : ⟨"home_address", [⟨"kind", .enumeration [.str "flat"] false ""⟩]⟩ ∈
      twins.definitions :=
    List.mem_cons_of_mem _ (List.mem_cons_of_mem _ List.mem_cons_self)
  obtain ⟨a, ha⟩ := (exists_analysis_iff twins {} ⟨"home_address",
    [⟨"kind", .enumeration [.str "flat"] false ""⟩]⟩).2 (by decide)
  exact ⟨hlower, hupper, hshare, _, hmem, rfl, a, ha,
    hdeclares.model rfl rfl ha hresolved hwalk⟩

section Dotted

/-- A definition whose name starts with a dot and a slash, another one without them, and a model
that refers to the first. -/
def dotted : Document where
  definitions := [⟨"./item", []⟩, ⟨"item", []⟩,
    ⟨"Order", [⟨"first", .reference "#/definitions/./item" ""⟩]⟩]

def dottedAnalysis : Analysis := .ofProperties dotted {} "item" []

/-- The second definition is the last one to put its model there. -/
theorem leftAt_dotted : leftAt (build dotted {} "").files (modelPath {} (fileStem "./item")) =
    some (modelFileOf {} "" dottedAnalysis) := by
  have hfiles : (build dotted {} "").files.reverse =
      [modelFileOf {} "" (.ofProperties dotted {} "Order"
          [⟨"first", .reference "#/definitions/./item" ""⟩]),
        modelFileOf {} "" dottedAnalysis,
        modelFileOf {} "" (.ofProperties dotted {} "./item" [])] := by rfl
  rw [leftAt, hfiles, List.find?_cons_of_neg (by decide +kernel),
    List.find?_cons_of_pos (by decide +kernel)]

/-- The file left where both definitions have their model declares another type than the one that
references to the first definition use. -/
theorem dotted_type_not_declared :
    IsAscii "./item".toList ∧ IsAscii "item".toList ∧ ShareModelPath {} "./item" "item" ∧
      resolve dotted {} "first" (.reference "#/definitions/./item" "") =
        .model "item" (modelImport {} "./item") ∧
      ∃ f, leftAt (build dotted {} "").files (modelPath {} (fileStem "./item")) = some f ∧
        ¬ Dart.Declares f.content "item" := by
  have htype : typeName "./item" = "item" := by decide +kernel
  have hresolved : resolve dotted {} "first" (.reference "#/definitions/./item" "") =
      .model (typeName "./item") (modelImport {} "./item") := by rfl
  refine ⟨by decide, by decide, by decide +kernel, htype ▸ hresolved, _, leftAt_dotted, ?_⟩
  have habsent : ∀ line ∈ Dart.commentLines (generationComment {} "") ++
      Dart.importLines {} dottedAnalysis.model ++
        "" :: Dart.classLines {} dottedAnalysis.model.name dottedAnalysis.model.fields,
      Text.occursIn ("item" ++ " \x7b").toList line.toList = false := by
    decide +kernel
  intro h
  rw [content_modelFileOf] at h
  have hname : '\n' ∉ "item".toList := by decide
  obtain ⟨line, hline, hin⟩ := exists_line_of_declares hname h
  rw [← Text.occursIn_iff, habsent line hline] at hin
  exact Bool.false_ne_true hin

end Dotted

end DartModels.Generation
