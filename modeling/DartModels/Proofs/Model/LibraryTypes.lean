import DartModels.Proofs.Generation.ImportLists
import DartModels.Proofs.Model.Clashes
import DartModels.Proofs.Naming.CapitalWords

/-! # Library types

Generated code refers to types of the library by name, and so to a generated type of that name where
a file declares or imports one. That happens exactly for the schema names whose words spell the
name.
-/

namespace DartModels.Model

open Naming Schema Text

variable {d : Document} {o : Options} {A : Definition} {p : Property}

/-- The types of the library that generated files refer to. -/
def libraryTypes : List String :=
  ["String", "Map", "List", "Object", "DeepCollectionEquality", "int", "bool", "dynamic"]

theorem isTypeWord_of_mem_libraryTypes : ∀ T ∈ libraryTypes, IsTypeWord T := by
  have hwords : ∀ T ∈ libraryTypes, (T.toList.head?.any Char.isAlpha = true ∧
      T.toList.tail.all Char.isAlphanum = true) ∧ ¬ "Type".toList <+: T.toList ∧ T ∉ keywords := by
    decide
  intro T hT
  obtain ⟨⟨hfirst, hrest⟩, hfallback, hkeyword⟩ := hwords T hT
  refine ⟨?_, hfallback, hkeyword⟩
  cases hshape : T.toList with
  | nil => simp [hshape] at hfirst
  | cons c rest =>
    rw [hshape] at hfirst hrest
    exact ⟨c, rest, rfl, hfirst, List.all_eq_true.1 hrest⟩

/-- A generated type goes by a name in the file of a model: the model itself, which the file
declares, or a type nested in that of a field, which the file imports. -/
inductive Captures (m : DartModels.Model) (name : String) : Prop

  | own : m.name = name → Captures m name

  | imported {f : Field} {t : TypeRef} {path : String} : f ∈ m.fields → NestedIn t f.type →
      t.importPath? = some path → Dart.typeText t = name → Captures m name

/-- The schema names after which the generated types in a model file are called: that of its
definition, and for each kept property its own if it declares an enumeration, or that of the
definition it refers to. -/
inductive NamesType (d : Document) (o : Options) (A : Definition) : String → Prop

  | own : NamesType d o A A.name

  | declared {p : Property} {e : Enumeration} : p ∈ A.properties →
      o.ignoresField p.name = .ok false → Declares p e → NamesType d o A p.name

  | referenced {p : Property} {D : Definition} : p ∈ A.properties →
      o.ignoresField p.name = .ok false → p.node.referenced? d = some D → NamesType d o A D.name

theorem mem_enumerations_iff {e : Enumeration} :
    e ∈ (Field.ofProperty d o p).enumerations ↔ Declares p e := by
  rw [enumerations_eq, Declares]
  cases p.node.bottom with
  | enumeration values isList path => simp
  | primitive | reference | list => simp

theorem Declares.name_eq {e : Enumeration} (h : Declares p e) : e.name = typeName p.name := by
  obtain ⟨values, -, -, -, rfl⟩ := h
  exact Enumeration.name_ofValues p.name values

theorem mem_walk_of_declares {e : Enumeration} (h : Declares p e) :
    ∃ path, .enumeration e path ∈ (resolve d o p.name p.node).walk := by
  have he : e ∈ (Field.ofProperty d o p).enumerations := mem_enumerations_iff.2 h
  obtain ⟨t, ht, hdeclared⟩ := List.mem_filterMap.1 he
  cases t <;> simp only [TypeRef.enumeration?, Option.some.injEq, reduceCtorEq] at hdeclared
  subst hdeclared
  exact ⟨_, ht⟩

theorem mem_walk_of_referenced? {property : String} {node : Node} {D : Definition}
    (h : node.referenced? d = some D) :
    .model (typeName D.name) (modelImport o D.name) ∈ (resolve d o property node).walk := by
  fun_induction Node.referenced? d node with
  | case1 pointer =>
    rw [resolve, resolveReference, h]
    exact List.mem_cons_self
  | case2 items _ ih =>
    rw [resolve]
    exact List.mem_cons_of_mem _ (ih h)
  | case3 => cases h

/-- The types that go by a name in a model file are those called after schema names that become
it. -/
theorem captures_iff {a : Analysis} (h : analyze d o A = .ok a) {type : String} :
    Captures a.model type ↔ ∃ name, NamesType d o A name ∧ typeName name = type := by
  constructor
  · rintro (hown | ⟨hf, hnested, hpath, htype⟩)
    · exact ⟨A.name, .own, (name_of_analyze h).symm.trans hown⟩
    · obtain ⟨p, hp, hfree, rfl⟩ := (mem_fields_iff h).1 hf
      have ht := mem_walk_iff.2 hnested
      rcases mem_walk_resolve ht hpath with ⟨D, hD, rfl⟩ | ⟨values, rfl⟩
      · rw [Dart.typeText] at htype
        exact ⟨D.name, .referenced hp hfree hD, htype⟩
      · rw [Dart.typeText, Enumeration.name_ofValues] at htype
        have hdeclared := mem_enumerations_iff.1 (List.mem_filterMap.2 ⟨_, ht, rfl⟩)
        exact ⟨p.name, .declared hp hfree hdeclared, htype⟩
  · rintro ⟨name, hnames, rfl⟩
    cases hnames with
    | own => exact .own (name_of_analyze h)
    | declared hp hfree hdeclared =>
      obtain ⟨path, ht⟩ := mem_walk_of_declares hdeclared
      have hf := (mem_fields_iff h).2 ⟨_, hp, hfree, rfl⟩
      refine .imported hf (mem_walk_iff.1 ht) rfl ?_
      rw [Dart.typeText, hdeclared.name_eq]
    | referenced hp hfree hD =>
      have hf := (mem_fields_iff h).2 ⟨_, hp, hfree, rfl⟩
      refine .imported hf (mem_walk_iff.1 (mem_walk_of_referenced? hD)) rfl ?_
      rw [Dart.typeText]

/-- An enumeration has the type name of a kept property that declares one. -/
theorem exists_enumeration_iff {a : Analysis} (h : analyze d o A = .ok a) {type : String} :
    (∃ e ∈ a.model.enumerations, e.name = type) ↔ ∃ p ∈ A.properties,
      o.ignoresField p.name = .ok false ∧ (∃ e, Declares p e) ∧ typeName p.name = type := by
  obtain ⟨kept, hkept, rfl⟩ := analysis_eq h
  rw [Analysis.enumerations_ofProperties]
  constructor
  · rintro ⟨e, he, rfl⟩
    obtain ⟨p, hp, hdeclared⟩ := List.mem_flatMap.1 he
    obtain ⟨hmem, hfree⟩ := (mem_keptProperties hkept p).1 hp
    rw [mem_enumerations_iff] at hdeclared
    exact ⟨p, hmem, hfree, ⟨e, hdeclared⟩, hdeclared.name_eq.symm⟩
  · rintro ⟨p, hmem, hfree, ⟨e, hdeclared⟩, rfl⟩
    have hp := (mem_keptProperties hkept p).2 ⟨hmem, hfree⟩
    exact ⟨e, List.mem_flatMap.2 ⟨p, hp, mem_enumerations_iff.2 hdeclared⟩, hdeclared.name_eq⟩

/-- A model has the name of a type of the library exactly if the words of its schema name spell it,
and so has an enumeration of the model. In the model file that type is captured exactly by those of
the definition, of the properties that declare enumerations and of the definitions referred to. To
spell a type in lower case, a schema name has to lose its own case. -/
theorem library_type_captured_iff {a : Analysis} (h : analyze d o A = .ok a) :
    ∀ T ∈ libraryTypes,
      (a.model.name = T ↔ Spells A.name T) ∧
      ((∃ e ∈ a.model.enumerations, e.name = T) ↔ ∃ p ∈ A.properties,
        o.ignoresField p.name = .ok false ∧ (∃ e, Declares p e) ∧ Spells p.name T) ∧
      (Captures a.model T ↔ ∃ name, NamesType d o A name ∧ Spells name T) ∧
      (T.toList.head?.any Char.isLower = true →
        ∀ name, Spells name T → WordsAmiss upper Char.isLower name) := by
  intro T hT
  have hword := isTypeWord_of_mem_libraryTypes T hT
  simp only [← typeName_eq_iff hword]
  refine ⟨?_, exists_enumeration_iff h, captures_iff h, fun hlower name hname => ?_⟩
  · rw [name_of_analyze h]
  · exact wordsAmiss_of_spells hword ((typeName_eq_iff hword).1 hname) hlower

/-- A model with an enumeration and a model beside it that go by the names of library types. -/
def shadowing : Definition :=
  ⟨"strings", [⟨"_list", .enumeration [.str "a"] true ""⟩, ⟨"text", .primitive (some "string") ""⟩,
    ⟨"count", .reference "#/definitions/$int" ""⟩]⟩

def shadowed : Document :=
  ⟨[shadowing, ⟨"$int", []⟩]⟩

theorem library_type_captured_shadowing :
    ∃ a, analyze shadowed {} shadowing = .ok a ∧ Captures a.model "List" ∧
      Captures a.model "int" ∧ ¬ Captures a.model "String" := by
  have ha : analyze shadowed {} shadowing =
      .ok (.ofProperties shadowed {} shadowing.name shadowing.properties) := by rfl
  have hcaptured := library_type_captured_iff ha
  have hlist : Declares ⟨"_list", .enumeration [.str "a"] true ""⟩ (.ofValues "_list" [.str "a"]) :=
    ⟨_, _, _, rfl, rfl⟩
  refine ⟨_, ha, (hcaptured "List" (by decide)).2.2.1.2 ⟨"_list", ?_, by decide +kernel⟩,
    (hcaptured "int" (by decide)).2.2.1.2 ⟨"$int", ?_, by decide +kernel⟩, fun hstring => ?_⟩
  · exact .declared List.mem_cons_self (by decide +kernel) hlist
  · have hD : (Node.reference "#/definitions/$int" "").referenced? shadowed =
        some ⟨"$int", []⟩ := by rfl
    exact .referenced (p := ⟨"count", _⟩) (by simp [shadowing]) (by decide +kernel) hD
  · obtain ⟨name, hnames, hspells⟩ := (hcaptured "String" (by decide)).2.2.1.1 hstring
    have hproperties : ∀ p ∈ shadowing.properties, ¬ Spells p.name "String" := by decide +kernel
    have hdefinitions : ∀ D ∈ shadowed.definitions, ¬ Spells D.name "String" := by decide +kernel
    cases hnames with
    | own => exact hdefinitions shadowing List.mem_cons_self hspells
    | declared hmem => exact hproperties _ hmem hspells
    | referenced _ _ hD => exact hdefinitions _ (mem_of_referenced? hD) hspells

/-- A model that goes by the name of the type of its field. -/
def textual : Definition :=
  ⟨"string", [⟨"text", .primitive (some "string") ""⟩]⟩

/-- Another one, whose capital goes to the dollar sign. -/
def numeric : Definition :=
  ⟨"$int", [⟨"count", .primitive (some "integer") ""⟩]⟩

theorem library_type_captured_textual :
    (∃ a, analyze ⟨[textual]⟩ {} textual = .ok a ∧ a.model.name ∈ libraryTypes ∧
      ["class String \x7b", "  final String? text;"] ⊆
        Dart.classLines {} a.model.name a.model.fields) ∧
    ∃ a, analyze ⟨[numeric]⟩ {} numeric = .ok a ∧ a.model.name ∈ libraryTypes ∧
      ["class int \x7b", "  final int? count;"] ⊆
        Dart.classLines {} a.model.name a.model.fields := by
  have htext : analyze ⟨[textual]⟩ {} textual =
      .ok (.ofProperties ⟨[textual]⟩ {} textual.name textual.properties) := by rfl
  have hnumber : analyze ⟨[numeric]⟩ {} numeric =
      .ok (.ofProperties ⟨[numeric]⟩ {} numeric.name numeric.properties) := by rfl
  exact ⟨⟨_, htext, by decide +kernel, by decide +kernel⟩,
    ⟨_, hnumber, by decide +kernel, by decide +kernel⟩⟩

end DartModels.Model
