import DartModels.Proofs.Generation.Directives
import DartModels.Proofs.Naming.Identifiers

/-! # Import lists

A model imports the files of the types nested in its kept properties, its own file apart, each once
and in ascending order. Its file has one directive for each, after that of the library for JSON and
that of the library for collections, which is imported exactly if a field is compared deeply.
-/

namespace DartModels

open Dart Model Naming Schema

namespace Model

variable {d : Document} {o : Options} {A : Definition} {p : Property}

/-- A type nested in another one at any depth of lists. -/
inductive NestedIn : TypeRef → TypeRef → Prop

  | self (t : TypeRef) : NestedIn t t

  | item {t item : TypeRef} : NestedIn t item → NestedIn t (.list item)

theorem mem_walk_self (t : TypeRef) : t ∈ t.walk := by
  cases t <;> exact List.mem_cons_self

theorem mem_walk_iff {t outer : TypeRef} : t ∈ outer.walk ↔ NestedIn t outer := by
  constructor
  · intro h
    induction outer with
    | list item ih =>
      rcases List.mem_cons.1 h with rfl | h
      · exact .self _
      · exact .item (ih h)
    | dynamic | primitive | model | enumeration =>
      rw [List.mem_singleton.1 h]
      exact .self _
  · intro h
    induction h with
    | self => exact mem_walk_self _
    | item _ ih => exact List.mem_cons_of_mem _ ih

/-- A type that a property has from elsewhere: the model that it refers to or the enumeration that
it declares, with the path under which that is imported. -/
def ComesFrom (d : Document) (o : Options) (p : Property) (t : TypeRef) (path : String) : Prop :=
  (∃ D, p.node.referenced? d = some D ∧ t = .model (typeName D.name) path ∧
    path = modelImport o D.name) ∨
  ∃ values, t = .enumeration (.ofValues p.name values) path ∧ path = enumerationImport o p.name

/-- In the types of properties, what has an import path comes from elsewhere. -/
theorem importPath?_eq_some_iff {t : TypeRef} {path : String}
    (ht : t ∈ (resolve d o p.name p.node).walk) :
    t.importPath? = some path ↔ ComesFrom d o p t path := by
  constructor
  · intro hpath
    rcases mem_walk_resolve ht hpath with ⟨D, hD, rfl⟩ | ⟨values, rfl⟩
    · obtain rfl := Option.some.inj hpath
      exact .inl ⟨D, hD, rfl, rfl⟩
    · obtain rfl := Option.some.inj hpath
      exact .inr ⟨values, rfl, rfl⟩
  · rintro (⟨D, -, rfl, -⟩ | ⟨values, rfl, -⟩) <;> rfl

/-- The code points of a text, by which texts are ordered. -/
def codePoints (s : String) : List Nat :=
  s.toList.map Char.toNat

theorem codePoints_lt {s t : String} (h : s < t) : codePoints s < codePoints t :=
  List.map_lt (fun _ _ hlt => hlt) (String.lt_iff_toList_lt.1 h)

/-- The imports that a definition calls for: the paths of what its kept properties have from
elsewhere, except its own, in strictly ascending order. -/
structure IsImportList (d : Document) (o : Options) (A : Definition) (imports : List String) :
    Prop where
  ascending : (imports.map codePoints).Pairwise (· < ·)
  not_own : modelImport o A.name ∉ imports
  mem_iff : ∀ path, path ∈ imports ↔ path ≠ modelImport o A.name ∧
    ∃ p ∈ A.properties, o.ignoresField p.name = .ok false ∧
      ∃ t, NestedIn t (resolve d o p.name p.node) ∧ ComesFrom d o p t path

theorem mem_imports_iff {name path : String} {kept : List Property} :
    path ∈ (Analysis.ofProperties d o name kept).model.imports ↔
      path ≠ modelImport o name ∧ ∃ p ∈ kept, ∃ t ∈ (resolve d o p.name p.node).walk,
        t.importPath? = some path := by
  constructor
  · intro h
    obtain ⟨hpath, hown⟩ := List.mem_filter.1 (mem_sortNames.1 h)
    obtain ⟨f, hf, himport⟩ := List.mem_flatMap.1 hpath
    obtain ⟨p, hp, rfl⟩ := List.mem_map.1 hf
    obtain ⟨t, ht, htpath⟩ := List.mem_filterMap.1 himport
    exact ⟨by simpa using hown, p, hp, t, ht, htpath⟩
  · rintro ⟨hown, p, hp, t, ht, htpath⟩
    exact (mem_imports name hp ht htpath).resolve_right hown

theorem isImportList_of_analyze {a : Analysis} (h : analyze d o A = .ok a) :
    IsImportList d o A a.model.imports := by
  obtain ⟨kept, hkept, rfl⟩ := analysis_eq h
  refine ⟨?_, ?_, fun path => ?_⟩
  · have hsorted : (Analysis.ofProperties d o A.name kept).model.imports.Pairwise (· < ·) :=
      pairwise_sortNames _
    exact List.pairwise_map.2 (hsorted.imp codePoints_lt)
  · intro hown
    exact (mem_imports_iff.1 hown).1 rfl
  · rw [mem_imports_iff]
    refine and_congr_right fun _ => exists_congr fun p => ?_
    rw [mem_keptProperties hkept, and_assoc]
    refine and_congr_right fun _ => and_congr_right fun _ => exists_congr fun t => ?_
    rw [← mem_walk_iff]
    exact and_congr_right importPath?_eq_some_iff

end Model

namespace Dart

variable {o : Options} {f : Field} {m : Model}

/-- Whether an expression makes use of deep equality. -/
def callsDeepEquality (text : String) : Bool :=
  Text.occursIn "DeepCollectionEquality(".toList text.toList

theorem callsDeepEquality_of_eq {text : String} (rest : String)
    (h : text = "const DeepCollectionEquality(" ++ rest) : callsDeepEquality text = true := by
  rw [h, callsDeepEquality, Text.occursIn_iff]
  exact ⟨"const ".toList, rest.toList, by rw [String.toList_append]; rfl⟩

theorem callsDeepEquality_of_notMem {text : String} (h : '(' ∉ text.toList) :
    callsDeepEquality text = false := by
  refine eq_false_of_ne_true fun hcalls => h ?_
  exact (Text.occursIn_iff.1 hcalls).subset (by decide)

/-- The comparison of a field makes use of deep equality exactly if its hash code does. -/
theorem callsDeepEquality_iff (h : ∀ c ∈ f.name.toList, isIdentifierChar c = true) :
    callsDeepEquality (equalityText o f) = isDeep o f ∧
      callsDeepEquality (hashText o f) = isDeep o f := by
  have hname : '(' ∉ f.name.toList := fun hmem => absurd (h _ hmem) (by decide)
  unfold equalityText hashText
  cases isDeep o f with
  | true =>
    rw [if_pos rfl, if_pos rfl]
    constructor
    · refine callsDeepEquality_of_eq s!").equals(other.{f.name}, {f.name})" ?_
      simp [toString, ← String.toList_inj]
    · refine callsDeepEquality_of_eq s!").hash({f.name})" ?_
      simp [toString, ← String.toList_inj]
  | false =>
    rw [if_neg (by decide), if_neg (by decide)]
    constructor <;> refine callsDeepEquality_of_notMem ?_ <;> simp [toString, hname]

/-- A line that imports something. -/
def isDirective (line : String) : Bool :=
  "import ".toList.isPrefixOf line.toList

theorem isDirective_importLine (path : String) : isDirective (importLine path) = true := by
  rw [isDirective, List.isPrefixOf_iff_prefix, importLine_eq, String.append_assoc,
    String.toList_append]
  exact List.prefix_append _ _

/-- No line starts like a directive. -/
def StartsApart (lines : List String) : Prop :=
  ∀ line ∈ lines, line.toList.head? ≠ some 'i'

theorem StartsApart.filter_eq_nil {lines : List String} (h : StartsApart lines) :
    lines.filter isDirective = [] := by
  refine List.filter_eq_nil_iff.2 fun line hline hdirective => h line hline ?_
  obtain ⟨rest, hrest⟩ := List.isPrefixOf_iff_prefix.1 hdirective
  rw [← hrest]
  rfl

section Declaration

variable {lines others : List String} {line : String}

@[simp]
theorem startsApart_nil : StartsApart [] :=
  List.forall_mem_nil _

@[simp]
theorem startsApart_cons :
    StartsApart (line :: lines) ↔ line.toList.head? ≠ some 'i' ∧ StartsApart lines :=
  List.forall_mem_cons

@[simp]
theorem startsApart_append :
    StartsApart (lines ++ others) ↔ StartsApart lines ∧ StartsApart others :=
  List.forall_mem_append

@[simp]
theorem startsApart_map {g : Field → String} {fields : List Field} :
    StartsApart (fields.map g) ↔ ∀ f ∈ fields, (g f).toList.head? ≠ some 'i' :=
  List.forall_mem_map

theorem exists_prefix_of_mem_statement {operator : String} (h : line ∈ statement operator lines) :
    ∃ first ∈ lines, first.toList <+: line.toList := by
  fun_induction statement operator lines with
  | case1 => cases h
  | case2 first =>
    refine ⟨first, List.mem_cons_self, ?_⟩
    rw [List.mem_singleton.1 h, String.toList_append]
    exact List.prefix_append _ _
  | case3 first rest _ ih =>
    rcases List.mem_cons.1 h with rfl | h
    · refine ⟨first, List.mem_cons_self, ?_⟩
      rw [String.toList_append]
      exact List.prefix_append _ _
    · obtain ⟨other, hother, hprefix⟩ := ih h
      exact ⟨other, List.mem_cons_of_mem _ hother, hprefix⟩

theorem exists_prefix_of_mem_commaBetween (h : line ∈ commaBetween lines) :
    ∃ first ∈ lines, first.toList <+: line.toList := by
  obtain ⟨first, hfirst, rfl | rfl⟩ := mem_commaBetween h
  · exact ⟨line, hfirst, List.prefix_rfl⟩
  · refine ⟨first, hfirst, ?_⟩
    rw [String.toList_append]
    exact List.prefix_append _ _

/-- Indented lines that are continued are still indented. -/
theorem startsApart_of_prefix (hindented : ∀ first ∈ lines, first.toList.head? = some ' ')
    (h : ∀ line ∈ others, ∃ first ∈ lines, first.toList <+: line.toList) : StartsApart others := by
  intro line hline
  obtain ⟨first, hfirst, rest, hrest⟩ := h line hline
  rw [← hrest, List.head?_append, hindented first hfirst, Option.some_or]
  decide

variable {o : Options} {name : String} {fields : List Field}

theorem startsApart_constructorLines : StartsApart (constructorLines name fields) := by
  unfold constructorLines
  split <;> simp [toString]

theorem startsApart_decoderLines : StartsApart (decoderLines name fields) := by
  unfold decoderLines
  split <;> simp [toString]

theorem startsApart_descriptionLines : StartsApart (descriptionLines name fields) := by
  have hfields : StartsApart (commaBetween (fields.map fun f => s!"  {f.name}: ${f.name}")) :=
    startsApart_of_prefix (by simp [toString]) fun _ => exists_prefix_of_mem_commaBetween
  simpa [descriptionLines, toString] using hfields

theorem startsApart_equalityLines : StartsApart (equalityLines o name fields) := by
  have hresult : StartsApart (statement " &&"
      (s!"    return other is {name}" :: fields.map fun f => "        " ++ equalityText o f)) :=
    startsApart_of_prefix (by simp [toString]) fun _ => exists_prefix_of_mem_statement
  simp [equalityLines, hresult]

theorem startsApart_hashLines : StartsApart (hashLines o fields) := by
  unfold hashLines
  split
  · simp
  · next hash rest _ =>
    have hresult : StartsApart
        (statement " ^" (("    return " ++ hash) :: rest.map ("        " ++ ·))) :=
      startsApart_of_prefix (by simp) fun _ => exists_prefix_of_mem_statement
    simp [hresult]

theorem startsApart_classLines : StartsApart (classLines o name fields) := by
  have hblank : StartsApart (if fields.isEmpty then [] else [""]) := by
    split <;> simp
  simp only [classLines, startsApart_append, startsApart_constructorLines,
    startsApart_decoderLines, startsApart_descriptionLines, startsApart_equalityLines,
    startsApart_hashLines, hblank]
  simp [encoderLines, jsonLines, toString]

end Declaration

theorem startsApart_commentLines (o : Options) (command : String) :
    StartsApart (commentLines (Generation.generationComment o command)) := by
  unfold Generation.generationComment commentLines
  split
  · split <;> simp [toString]
  · simp

theorem filter_importLines (o : Options) (m : Model) :
    (importLines o m).filter isDirective = (allImports o m).map importLine := by
  have hblank : isDirective "" = false := rfl
  have hpaths : (m.imports.map importLine).filter isDirective = m.imports.map importLine := by
    rw [List.filter_eq_self, List.forall_mem_map]
    exact fun path _ => isDirective_importLine path
  have hmodels : (if m.imports.isEmpty then [] else "" :: m.imports.map importLine).filter
      isDirective = m.imports.map importLine := by
    cases himports : m.imports.isEmpty with
    | true => rw [List.isEmpty_iff.1 himports]; rfl
    | false => rw [if_neg (by decide), List.filter_cons_of_neg (by simp [hblank]), hpaths]
  have hcollection : (if usesCollection o m.fields then ["", importLine collectionImport]
      else []).filter isDirective =
        (if usesCollection o m.fields then [collectionImport] else []).map importLine := by
    cases usesCollection o m.fields <;> rfl
  rw [importLines, allImports, List.filter_append, List.filter_append, List.map_append,
    List.map_append, hmodels, hcollection]
  rfl

/-- The directives of a model file are those of its imports, one for each in their order. -/
theorem exists_directives (o : Options) (command : String) (m : Model) :
    ∃ lines, modelFile o (Generation.generationComment o command) m = unlines lines ∧
      lines.filter isDirective = (allImports o m).map importLine := by
  have hne : commentLines (Generation.generationComment o command) ++ importLines o m ≠ [] := by
    simp [importLines]
  have hbody : StartsApart ("" :: classLines o m.name m.fields) :=
    startsApart_cons.2 ⟨by decide, startsApart_classLines⟩
  refine ⟨_, fileText_of_ne_nil hne _, ?_⟩
  rw [List.filter_append, List.filter_append, (startsApart_commentLines o command).filter_eq_nil,
    hbody.filter_eq_nil, List.nil_append, List.append_nil, filter_importLines]

end Dart

namespace Generation

variable {d : Document} {o : Options}

/-- What a model file imports: the library for JSON, that for collections exactly if a field is
compared and hashed deeply, and the imports of the model; it has one directive for each. -/
structure RendersImports (o : Options) (m : Model) : Prop where
  fields_agree : ∀ f ∈ m.fields,
    callsDeepEquality (equalityText o f) = callsDeepEquality (hashText o f)
  allImports_eq : allImports o m = "dart:convert" ::
    (if m.fields.any fun f => callsDeepEquality (equalityText o f)
      then ["package:collection/collection.dart"] else []) ++ m.imports
  directives : ∀ command, ∃ lines, modelFile o (generationComment o command) m = unlines lines ∧
    lines.filter isDirective = (allImports o m).map fun path => "import '" ++ path ++ "';"

theorem rendersImports_of_analyze {A : Definition} {a : Analysis} (h : analyze d o A = .ok a) :
    RendersImports o a.model := by
  have hfields : ∀ f ∈ a.model.fields, callsDeepEquality (equalityText o f) = isDeep o f ∧
      callsDeepEquality (hashText o f) = isDeep o f := by
    intro f hf
    refine callsDeepEquality_iff ?_
    rw [(field_of_analyze h hf).2]
    exact fun _ => isIdentifierChar_of_mem_fieldName
  refine ⟨fun f hf => ?_, ?_, fun command => exists_directives o command a.model⟩
  · rw [(hfields f hf).1, (hfields f hf).2]
  · have huses : usesCollection o a.model.fields =
        a.model.fields.any fun f => callsDeepEquality (equalityText o f) := by
      rw [usesCollection, Bool.eq_iff_iff, List.any_eq_true, List.any_eq_true]
      exact exists_congr fun f => and_congr_right fun hf => by rw [(hfields f hf).1]
    rw [allImports, huses]
    rfl

/-- A model that refers to itself, to another one below two lists, and to an enumeration of its
own; it has a field that is compared deeply. -/
def fleet : Document where
  definitions := [
    ⟨"Fleet", [⟨"parent", .reference "#/definitions/Fleet" ""⟩,
      ⟨"rows", .list (some (.list (some (.reference "#/definitions/Ship" "")) "")) ""⟩,
      ⟨"state", .enumeration [.str "afloat"] false ""⟩]⟩,
    ⟨"Ship", []⟩]

end Generation

end DartModels
