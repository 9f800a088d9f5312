import DartModels.Dart.Expr
import DartModels.Proofs.Model.Analysis
import DartModels.Proofs.Naming.Legal

/-! # Names of a model

Every name that a model brings into the generated language is a legal identifier there: the names of
the model and of the types it uses, of its fields, and of its enumerations with their members.
-/

namespace DartModels.Model

open Naming Schema

variable {d : Document} {o : Options}

/-- A type with an import is generated, and so is its name. -/
theorem exists_typeName_of_mem_walk {property : String} {node : Node} {T : TypeRef} {path : String}
    (hT : T ∈ (resolve d o property node).walk) (hpath : T.importPath? = some path) :
    ∃ name, Dart.typeText T = typeName name := by
  rcases mem_walk_resolve hT hpath with ⟨D, -, rfl⟩ | ⟨values, rfl⟩
  · exact ⟨D.name, by rw [Dart.typeText]⟩
  · exact ⟨property, by rw [Dart.typeText, Enumeration.name_ofValues]⟩

theorem exists_typeName_of_analyze {A : Definition} {a : Analysis} (h : analyze d o A = .ok a)
    {f : Field} (hf : f ∈ a.model.fields) {T : TypeRef} (hT : T ∈ f.type.walk) {path : String}
    (hpath : T.importPath? = some path) : ∃ name, Dart.typeText T = typeName name := by
  obtain ⟨p, -, -, rfl⟩ := (mem_fields_iff h).1 hf
  dsimp only [Field.ofProperty] at hT
  exact exists_typeName_of_mem_walk hT hpath

theorem isLegal_of_mem_members {property : String} {values : List Json} :
    ∀ m ∈ (Enumeration.ofValues property values).members,
      IsLegal (sentinel :: enumMemberNames) m.name := by
  simp only [Enumeration.ofValues, List.forall_mem_map]
  exact fun value _ => isLegal_memberName value.literalText

/-- Whatever the names and the literals of a schema are, the names made of them are legal: those of
models and enumerations, those of fields beside the members of every model, and those of members
beside the members of every enumeration and the sentinel. -/
theorem analyze_names_legal {A : Definition} {a : Analysis} (h : analyze d o A = .ok a) :
    IsLegal [] a.model.name ∧
      (∀ f ∈ a.model.fields, IsLegal modelMemberNames f.name ∧
        ∀ T ∈ f.type.walk, ∀ path, T.importPath? = some path → IsLegal [] (Dart.typeText T)) ∧
      ∀ e ∈ a.model.enumerations, IsLegal [] e.name ∧
        ∀ m ∈ e.members, IsLegal (sentinel :: enumMemberNames) m.name := by
  refine ⟨?_, fun f hf => ⟨?_, fun T hT path hpath => ?_⟩, ?_⟩
  · obtain ⟨kept, -, rfl⟩ := analysis_eq h
    rw [Analysis.name_ofProperties]
    exact isLegal_typeName A.name
  · rw [(field_of_analyze h hf).2]
    exact isLegal_fieldName f.schemaName
  · obtain ⟨name, hname⟩ := exists_typeName_of_analyze h hf hT hpath
    rw [hname]
    exact isLegal_typeName name
  · obtain ⟨kept, -, rfl⟩ := analysis_eq h
    intro e he
    obtain ⟨p, -, values, rfl⟩ := exists_property_of_mem_enumerations he
    rw [Enumeration.name_ofValues]
    exact ⟨isLegal_typeName p.name, isLegal_of_mem_members⟩

/-- Names that start with digits, collide with reserved names or hold no letter at all. -/
def unruly : Definition :=
  ⟨"4_ßheels", [⟨"hash code", .primitive none ""⟩, ⟨"_ _", .reference "#/definitions/4_ßheels" ""⟩,
    ⟨"class", .enumeration [.str "UNKNOWN", .int 404, .null, .arr [.str "İ_x"]] false ""⟩]⟩

theorem analyze_names_legal_unruly :
    ∃ a, analyze ⟨[unruly]⟩ {} unruly = .ok a ∧ IsLegal [] a.model.name ∧
      (∃ f ∈ a.model.fields, f.schemaName = "hash code" ∧ IsLegal modelMemberNames f.name) ∧
      ∃ e ∈ a.model.enumerations, e.schemaName = "class" ∧
        ∀ m ∈ e.members, IsLegal (sentinel :: enumMemberNames) m.name := by
  have ha : analyze ⟨[unruly]⟩ {} unruly =
      .ok (.ofProperties ⟨[unruly]⟩ {} unruly.name unruly.properties) := by rfl
  obtain ⟨hmodel, hfields, henumerations⟩ := analyze_names_legal ha
  have hf := List.mem_map_of_mem (f := Field.ofProperty ⟨[unruly]⟩ {})
    (List.mem_cons_self : _ ∈ unruly.properties)
  have he : .ofValues "class" [.str "UNKNOWN", .int 404, .null, .arr [.str "İ_x"]] ∈
      (Analysis.ofProperties ⟨[unruly]⟩ {} unruly.name unruly.properties).model.enumerations :=
    mem_enumerations (p := ⟨"class", _⟩) _
      (List.mem_cons_of_mem _ (List.mem_cons_of_mem _ List.mem_cons_self)) List.mem_cons_self
  exact ⟨_, ha, hmodel, ⟨_, hf, rfl, (hfields _ hf).1⟩, _, he, rfl, (henumerations _ he).2⟩

example : typeName "4_ßheels" = "Type4SSheels" ∧ fieldName "hash code" = "hashCode_" ∧
    memberName "UNKNOWN" = "unknown_" := by decide +kernel

end DartModels.Model
