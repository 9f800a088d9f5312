import DartModels.Proofs.Model.Names
import DartModels.Proofs.Naming.Casing

/-! # Members named like their own type

Type names start with a capital letter and the names of fields and members do not, unless what was
given its case is dropped. A field has the name of its model, or a member that of its enumeration,
only if one of the two names has lost its case.
-/

namespace DartModels.Model

open Naming Schema Text

variable {d : Document} {o : Options}

/-- Of a type and a member of one name, the type has lost its capital or the member has gained
one. -/
theorem case_lost_of_name_eq {type member : String}
    (h : (typeName type).toList.head? = member.toList.head?) :
    WordsAmiss upper Char.isLower type ∨ member.toList.head?.any Char.isUpper = true := by
  by_cases hlost : WordsAmiss upper Char.isLower type
  · exact Or.inl hlost
  · exact Or.inr (h ▸ isUpper_head_typeName hlost)

theorem name_ne_own_type {A : Definition} {a : Analysis} (h : analyze d o A = .ok a) :
    (∀ f ∈ a.model.fields, f.name = a.model.name →
      WordsAmiss upper Char.isLower a.model.schemaName ∨
        WordsAmiss lower Char.isUpper f.schemaName) ∧
    ∀ e ∈ a.model.enumerations, ∀ m ∈ e.members, m.name = e.name →
      WordsAmiss upper Char.isLower e.schemaName ∨ LiteralAmiss m.literal.literalText := by
  constructor
  · intro f hf hname
    rw [(field_of_analyze h hf).2] at hname
    obtain ⟨kept, -, rfl⟩ := analysis_eq h
    rw [Analysis.name_ofProperties] at hname
    rw [Analysis.schemaName_ofProperties]
    exact (case_lost_of_name_eq (congrArg (·.toList.head?) hname.symm)).imp_right
      isUpper_head_fieldName_iff.1
  · intro e he m hm hname
    obtain ⟨kept, -, rfl⟩ := analysis_eq h
    obtain ⟨p, -, values, rfl⟩ := exists_property_of_mem_enumerations he
    obtain ⟨value, -, rfl⟩ := List.mem_map.1 hm
    rw [Enumeration.name_ofValues] at hname
    dsimp only at hname ⊢
    exact (case_lost_of_name_eq (congrArg (·.toList.head?) hname.symm)).imp_right
      isUpper_head_memberName_iff.1

/-- Names that differ from their types by the case of the first letter alone. -/
def homonyms : Definition :=
  ⟨"unit_price", [⟨"UnitPrice", .primitive (some "integer") ""⟩,
    ⟨"size", .enumeration [.str "SIZE", .str "Size"] false ""⟩]⟩

theorem name_ne_own_type_homonyms :
    ∃ a, analyze ⟨[homonyms]⟩ {} homonyms = .ok a ∧
      (∃ f ∈ a.model.fields, f.schemaName = "UnitPrice" ∧ f.name ≠ a.model.name) ∧
      ∃ e ∈ a.model.enumerations, ∃ m ∈ e.members, m.name ≠ e.name := by
  have ha : analyze ⟨[homonyms]⟩ {} homonyms =
      .ok (.ofProperties ⟨[homonyms]⟩ {} homonyms.name homonyms.properties) := by rfl
  obtain ⟨hfields, henumerations⟩ := name_ne_own_type ha
  have hf := List.mem_map_of_mem (f := Field.ofProperty ⟨[homonyms]⟩ {})
    (List.mem_cons_self : _ ∈ homonyms.properties)
  have he : .ofValues "size" [.str "SIZE", .str "Size"] ∈ (Analysis.ofProperties ⟨[homonyms]⟩ {}
      homonyms.name homonyms.properties).model.enumerations :=
    mem_enumerations (p := ⟨"size", _⟩) _ (List.mem_cons_of_mem _ List.mem_cons_self)
      List.mem_cons_self
  refine ⟨_, ha, ⟨_, hf, rfl, fun hname => ?_⟩, _, he, _, List.mem_cons_self, fun hname => ?_⟩
  · rcases hfields _ hf hname with hlost | hlost
    · exact absurd (isLower_head_typeName_iff.2 hlost) (by decide +kernel)
    · exact absurd (isUpper_head_fieldName_iff.2 hlost) (by decide +kernel)
  · rcases henumerations _ he _ List.mem_cons_self hname with hlost | hlost
    · exact absurd (isLower_head_typeName_iff.2 hlost) (by decide +kernel)
    · exact absurd (isUpper_head_memberName_iff.2 hlost) (by decide +kernel)

/-- A dollar sign takes the case of its word, and an empty first word that of a member. -/
def misnamed : Definition :=
  ⟨"$price", [⟨"price", .primitive (some "integer") ""⟩,
    ⟨"size", .enumeration [.str "_size"] false ""⟩]⟩

theorem misnamed_name_eq :
    ∃ a, analyze ⟨[misnamed]⟩ {} misnamed = .ok a ∧
      (∃ f ∈ a.model.fields, f.name = a.model.name) ∧
      ∃ e ∈ a.model.enumerations, ∃ m ∈ e.members, m.name = e.name := by
  have ha : analyze ⟨[misnamed]⟩ {} misnamed =
      .ok (.ofProperties ⟨[misnamed]⟩ {} misnamed.name misnamed.properties) := by rfl
  have hf := List.mem_map_of_mem (f := Field.ofProperty ⟨[misnamed]⟩ {})
    (List.mem_cons_self : _ ∈ misnamed.properties)
  have he : .ofValues "size" [.str "_size"] ∈ (Analysis.ofProperties ⟨[misnamed]⟩ {}
      misnamed.name misnamed.properties).model.enumerations :=
    mem_enumerations (p := ⟨"size", _⟩) _ (List.mem_cons_of_mem _ List.mem_cons_self)
      List.mem_cons_self
  have hfield : fieldName "price" = typeName "$price" := by decide +kernel
  have hmember : memberName "_size" = typeName "size" := by decide +kernel
  exact ⟨_, ha, ⟨_, hf, hfield⟩, _, he, _, List.mem_cons_self, hmember⟩

end DartModels.Model
