import DartModels.Model.Analysis
import Mathlib.Data.List.Nodup
import Mathlib.Data.String.Basic

/-! # What an analysis holds

The fields of a model are the properties that are kept, one for one. Its imports and enumerations
are those of the types nested in them.
-/

namespace DartModels

namespace Schema

/-- The definition that a property schema refers to at the bottom of its lists. -/
def Node.referenced? (d : Document) : Node → Option Definition
  | .reference pointer _ => d.resolve? pointer
  | .list (some items) _ => items.referenced? d
  | _ => none

theorem mem_of_referenced? {d : Document} {node : Node} {D : Definition}
    (h : node.referenced? d = some D) : D ∈ d.definitions := by
  fun_induction Node.referenced? d node with
  | case1 pointer =>
    dsimp only [Document.resolve?] at h
    split at h
    · cases h
    · exact List.mem_of_find?_eq_some h
  | case2 items _ ih => exact ih h
  | case3 => cases h

end Schema

namespace Model

open Naming Schema

variable {d : Document} {o : Options}

section Kept

variable {α ε : Type}

/-- The items that a test does not reject; the test may fail. -/
def keep (rejects : α → Except ε Bool) : List α → Except ε (List α)
  | [] => .ok []
  | x :: rest =>
    match rejects x with
    | .error e => .error e
    | .ok rejected => (keep rejects rest).map fun kept => if rejected then kept else x :: kept

theorem keep_eq_ok_iff [DecidableEq ε] {rejects : α → Except ε Bool} {items kept : List α} :
    keep rejects items = .ok kept ↔
      (∀ x ∈ items, (rejects x).isOk = true) ∧
        kept = items.filter fun x => rejects x = .ok false := by
  induction items generalizing kept with
  | nil =>
    constructor
    · rintro ⟨⟩
      simp
    · rintro ⟨-, rfl⟩
      rfl
  | cons x rest ih =>
    rw [keep, List.forall_mem_cons, List.filter_cons]
    cases hx : rejects x with
    | error e => simp [Except.isOk, Except.toBool]
    | ok rejected =>
      cases hrest : keep rejects rest with
      | error e =>
        have hfail : ¬ ∀ y ∈ rest, (rejects y).isOk = true := by
          intro hall
          have := ih.2 ⟨hall, rfl⟩
          simp [hrest] at this
        simp [Except.map, hfail]
      | ok others =>
        obtain ⟨hall, rfl⟩ := ih.1 hrest
        have hok : (Except.ok rejected : Except ε Bool).isOk = true := rfl
        have hiff (l l' : List α) : l = l' ↔ (∀ y ∈ rest, (rejects y).isOk = true) ∧ l' = l :=
          ⟨fun h => ⟨hall, h.symm⟩, fun h => h.2.symm⟩
        cases rejected <;> simpa [Except.map, hok] using hiff _ _

end Kept

theorem keptProperties_eq (o : Options) (properties : List Property) :
    keptProperties o properties = keep (fun p => o.ignoresField p.name) properties := by
  induction properties with
  | nil => rfl
  | cons p rest ih =>
    rw [keptProperties, keep, ih]
    cases o.ignoresField p.name <;> rfl

theorem mem_keptProperties {properties kept : List Property}
    (h : keptProperties o properties = .ok kept) (p : Property) :
    p ∈ kept ↔ p ∈ properties ∧ o.ignoresField p.name = .ok false := by
  rw [keptProperties_eq, keep_eq_ok_iff] at h
  simp [h.2]

theorem mem_walk_of_mem_walk_list {item T : TypeRef} {path : String}
    (hT : T ∈ (TypeRef.list item).walk) (hpath : T.importPath? = some path) : T ∈ item.walk := by
  rcases List.mem_cons.1 hT with rfl | hT
  · simp [TypeRef.importPath?] at hpath
  · exact hT

/-- A type with an import is the model of the definition referred to, or the enumeration that the
property declares. -/
theorem mem_walk_resolve {property : String} {node : Node}
    {T : TypeRef} {path : String} (hT : T ∈ (resolve d o property node).walk)
    (hpath : T.importPath? = some path) :
    (∃ D, node.referenced? d = some D ∧ T = .model (typeName D.name) (modelImport o D.name)) ∨
      ∃ values, T = .enumeration (.ofValues property values) (enumerationImport o property) := by
  fun_induction resolve d o property node with
  | case1 | case2 =>
    rw [List.mem_singleton.1 hT] at hpath
    simp [TypeRef.importPath?] at hpath
  | case3 values => exact Or.inr ⟨values, List.mem_singleton.1 (mem_walk_of_mem_walk_list hT hpath)⟩
  | case4 values => exact Or.inr ⟨values, List.mem_singleton.1 hT⟩
  | case5 pointer =>
    rw [resolveReference] at hT
    cases hD : d.resolve? pointer with
    | none =>
      rw [hD] at hT
      rw [List.mem_singleton.1 hT] at hpath
      simp [TypeRef.importPath?] at hpath
    | some D =>
      rw [hD] at hT
      exact Or.inl ⟨D, hD, List.mem_singleton.1 hT⟩
  | case6 =>
    rw [List.mem_singleton.1 (mem_walk_of_mem_walk_list hT hpath)] at hpath
    simp [TypeRef.importPath?] at hpath
  | case7 items _ ih => exact ih (mem_walk_of_mem_walk_list hT hpath)

theorem mem_insertName {name n : String} {names : List String} :
    n ∈ insertName name names ↔ n = name ∨ n ∈ names := by
  induction names with
  | nil => simp [insertName]
  | cons m rest ih =>
    unfold insertName
    split
    · simp
    · split
      · next h => simp [h]
      · rw [List.mem_cons, ih, List.mem_cons, or_left_comm]

theorem mem_sortNames {n : String} {names : List String} : n ∈ sortNames names ↔ n ∈ names := by
  induction names with
  | nil => simp [sortNames]
  | cons m rest ih =>
    rw [sortNames, List.foldr_cons, mem_insertName, List.mem_cons]
    exact or_congr_right ih

theorem pairwise_insertName {name : String} {names : List String}
    (h : names.Pairwise (· < ·)) : (insertName name names).Pairwise (· < ·) := by
  induction names with
  | nil => exact List.pairwise_singleton _ name
  | cons n rest ih =>
    obtain ⟨hn, hrest⟩ := List.pairwise_cons.1 h
    unfold insertName
    split
    · next hlt =>
      refine List.pairwise_cons.2 ⟨List.forall_mem_cons.2 ⟨hlt, fun m hm => ?_⟩, h⟩
      exact hlt.trans (hn m hm)
    · next hge =>
      split
      · exact h
      · next hne =>
        have hlt : n < name := lt_of_le_of_ne (not_lt.1 hge) (Ne.symm hne)
        refine List.pairwise_cons.2 ⟨fun m hm => ?_, ih hrest⟩
        rcases mem_insertName.1 hm with rfl | hm
        · exact hlt
        · exact hn m hm

theorem pairwise_sortNames (names : List String) : (sortNames names).Pairwise (· < ·) := by
  induction names with
  | nil => exact List.Pairwise.nil
  | cons n rest ih => exact pairwise_insertName ih

@[simp]
theorem Enumeration.name_ofValues (property : String) (values : List Json) :
    (Enumeration.ofValues property values).name = typeName property := by
  dsimp only [Enumeration.ofValues]

@[simp]
theorem Enumeration.stem_ofValues (property : String) (values : List Json) :
    (Enumeration.ofValues property values).stem = fileStem property := by
  dsimp only [Enumeration.ofValues]

@[simp]
theorem Analysis.name_ofProperties (d : Document) (o : Options) (name : String)
    (kept : List Property) : (Analysis.ofProperties d o name kept).model.name = typeName name := by
  dsimp only [Analysis.ofProperties]

@[simp]
theorem Analysis.stem_ofProperties (d : Document) (o : Options) (name : String)
    (kept : List Property) : (Analysis.ofProperties d o name kept).model.stem = fileStem name := by
  dsimp only [Analysis.ofProperties]

@[simp]
theorem Analysis.fields_ofProperties (d : Document) (o : Options) (name : String)
    (kept : List Property) :
    (Analysis.ofProperties d o name kept).model.fields = kept.map (Field.ofProperty d o) := by
  dsimp only [Analysis.ofProperties]

@[simp]
theorem Analysis.schemaName_ofProperties (d : Document) (o : Options) (name : String)
    (kept : List Property) : (Analysis.ofProperties d o name kept).model.schemaName = name := by
  dsimp only [Analysis.ofProperties]

theorem Analysis.enumerations_ofProperties (d : Document) (o : Options) (name : String)
    (kept : List Property) : (Analysis.ofProperties d o name kept).model.enumerations =
      kept.flatMap fun p => (Field.ofProperty d o p).enumerations := by
  dsimp only [Analysis.ofProperties]
  rw [List.flatMap_map]

theorem Analysis.unresolved_ofProperties (d : Document) (o : Options) (name : String)
    (kept : List Property) : (Analysis.ofProperties d o name kept).unresolved =
      kept.flatMap fun p => Model.unresolved d p.node := by
  dsimp only [Analysis.ofProperties]

theorem analysis_eq {A : Definition} {a : Analysis} (h : analyze d o A = .ok a) :
    ∃ kept, keptProperties o A.properties = .ok kept ∧
      a = Analysis.ofProperties d o A.name kept := by
  rw [analyze] at h
  cases hkept : keptProperties o A.properties with
  | error fault => simp [hkept, Except.map] at h
  | ok kept =>
    simp only [hkept, Except.map, Except.ok.injEq] at h
    exact ⟨kept, rfl, h.symm⟩

/-- Only the options can stop an analysis, and not before a property has to be judged by them. -/
theorem exists_analysis_iff (d : Document) (o : Options) (A : Definition) :
    (∃ a, analyze d o A = .ok a) ↔ ∀ p ∈ A.properties, (o.ignoresField p.name).isOk = true := by
  constructor
  · rintro ⟨a, ha⟩
    obtain ⟨kept, hkept, -⟩ := analysis_eq ha
    rw [keptProperties_eq] at hkept
    exact (keep_eq_ok_iff.1 hkept).1
  · intro h
    have hkept := keep_eq_ok_iff.2 ⟨h, rfl⟩
    rw [← keptProperties_eq] at hkept
    rw [analyze, hkept]
    exact ⟨_, rfl⟩

theorem stem_of_analyze {A : Definition} {a : Analysis} (h : analyze d o A = .ok a) :
    a.model.stem = fileStem A.name := by
  obtain ⟨kept, -, rfl⟩ := analysis_eq h
  exact Analysis.stem_ofProperties d o A.name kept

theorem name_of_analyze {A : Definition} {a : Analysis} (h : analyze d o A = .ok a) :
    a.model.name = typeName A.name := by
  obtain ⟨kept, -, rfl⟩ := analysis_eq h
  exact Analysis.name_ofProperties d o A.name kept

/-- The fields are those of the properties that the options keep. -/
theorem mem_fields_iff {A : Definition} {a : Analysis} (h : analyze d o A = .ok a) {f : Field} :
    f ∈ a.model.fields ↔ ∃ p ∈ A.properties, o.ignoresField p.name = .ok false ∧
      Field.ofProperty d o p = f := by
  obtain ⟨kept, hkept, rfl⟩ := analysis_eq h
  rw [Analysis.fields_ofProperties, List.mem_map]
  refine exists_congr fun p => ?_
  rw [mem_keptProperties hkept, and_assoc]

/-- Every field may be null and is named for its schema name. -/
theorem field_of_analyze {A : Definition} {a : Analysis} (h : analyze d o A = .ok a) {f : Field}
    (hf : f ∈ a.model.fields) : f.isNullable = true ∧ f.name = fieldName f.schemaName := by
  obtain ⟨p, -, -, rfl⟩ := (mem_fields_iff h).1 hf
  constructor <;> dsimp only [Field.ofProperty]

/-- A name is computed from the schema name, so distinct names have distinct schema names. -/
theorem nodup_schemaNames {A : Definition} {a : Analysis} (h : analyze d o A = .ok a)
    (hn : (a.model.fields.map (·.name)).Nodup) : (a.model.fields.map (·.schemaName)).Nodup := by
  have hnames : a.model.fields.map (·.name) =
      (a.model.fields.map (·.schemaName)).map fieldName := by
    rw [List.map_map]
    refine List.map_congr_left fun f hf => ?_
    rw [Function.comp_apply, (field_of_analyze h hf).2]
  rw [hnames] at hn
  exact List.Nodup.of_map fieldName hn

/-- The enumerations of a model are named for properties that are kept. -/
theorem exists_property_of_mem_enumerations {name : String} {kept : List Property}
    {e : Enumeration} (h : e ∈ (Analysis.ofProperties d o name kept).model.enumerations) :
    ∃ p ∈ kept, ∃ values, e = .ofValues p.name values := by
  obtain ⟨field, hfield, he⟩ := List.mem_flatMap.1 h
  obtain ⟨p, hp, rfl⟩ := List.mem_map.1 hfield
  obtain ⟨T, hT, hdeclared⟩ := List.mem_filterMap.1 he
  refine ⟨p, hp, ?_⟩
  cases T <;> simp only [TypeRef.enumeration?, Option.some.injEq, reduceCtorEq] at hdeclared
  subst hdeclared
  rcases mem_walk_resolve hT rfl with ⟨D, -, hmodel⟩ | ⟨values, henum⟩
  · cases hmodel
  · exact ⟨values, (TypeRef.enumeration.inj henum).1⟩

/-- Every import of a field is an import of the model, or leads to the model's own file. -/
theorem mem_imports (name : String) {path : String}
    {kept : List Property} {p : Property} {T : TypeRef} (hp : p ∈ kept)
    (hT : T ∈ (resolve d o p.name p.node).walk) (hpath : T.importPath? = some path) :
    path ∈ (Analysis.ofProperties d o name kept).model.imports ∨ path = modelImport o name := by
  by_cases hown : path = modelImport o name
  · exact Or.inr hown
  · refine Or.inl (mem_sortNames.2 (List.mem_filter.2 ⟨?_, by simpa using hown⟩))
    exact List.mem_flatMap.2 ⟨_, List.mem_map_of_mem hp, List.mem_filterMap.2 ⟨T, hT, hpath⟩⟩

theorem mem_enumerations (name : String) {path : String}
    {kept : List Property} {p : Property} {e : Enumeration} (hp : p ∈ kept)
    (hT : TypeRef.enumeration e path ∈ (resolve d o p.name p.node).walk) :
    e ∈ (Analysis.ofProperties d o name kept).model.enumerations :=
  List.mem_flatMap.2 ⟨_, List.mem_map_of_mem hp, List.mem_filterMap.2 ⟨_, hT, rfl⟩⟩

end Model

end DartModels
