import DartModels.Schema.Node
import Mathlib.Data.List.Basic

/-! # Schemas of types

Schemas that only name types, the values that they admit, and the nodes that are read from them.
-/

namespace DartModels.Schema

/-- The names under `type`. -/
def typeNames (members : List (String × Json)) : List String :=
  match members.lookup "type" with
  | some (.str name) => [name]
  | some (.arr names) => names.filterMap Json.string?
  | _ => []

/-- The names of the types of a value; an integer is also a number. -/
def typesOf : Json → List String
  | .null => ["null"]
  | .bool _ => ["boolean"]
  | .int _ => ["integer", "number"]
  | .float _ => ["number"]
  | .str _ => ["string"]
  | .arr _ => ["array"]
  | .obj _ => ["object"]

/-- A schema without keywords other than `type` and `items`, to any depth. -/
inductive IsTypeSchema : Json → Prop
  | obj {members : List (String × Json)} :
      (∀ m ∈ members, m.1 = "type" ∨ m.1 = "items") →
      (∀ items, members.lookup "items" = some items → IsTypeSchema items) →
      IsTypeSchema (.obj members)

/-- A value of one of the types that are named, with items that the schema of items admits. -/
inductive Valid : Json → Json → Prop
  | intro {members : List (String × Json)} {v : Json} :
      (∀ type, members.lookup "type" = some type →
        ∃ name ∈ typeNames members, name ∈ typesOf v) →
      (∀ items values, members.lookup "items" = some items → v = .arr values →
        ∀ w ∈ values, Valid items w) →
      Valid (.obj members) v

variable {members : List (String × Json)} {v : Json}

theorem null_mem_typesOf_iff : "null" ∈ typesOf v ↔ v = .null := by
  cases v <;> simp [typesOf]

/-- With a single name apart from `null`, every other value than null has the type of that name. -/
theorem mem_typesOf_of_valid {name : String} (h : Valid (.obj members) v)
    (hname : (typeNames members).filter (· != "null") = [name]) (hv : v ≠ .null) :
    name ∈ typesOf v := by
  cases h with
  | intro htype =>
    cases hlookup : members.lookup "type" with
    | none => simp [typeNames, hlookup] at hname
    | some type =>
      obtain ⟨other, hother, hvalue⟩ := htype type hlookup
      have hnull : other ≠ "null" := by
        rintro rfl
        exact hv (null_mem_typesOf_iff.1 hvalue)
      have hmem : other ∈ (typeNames members).filter (· != "null") :=
        List.mem_filter.2 ⟨hother, by simpa using hnull⟩
      rw [hname, List.mem_singleton] at hmem
      exact hmem ▸ hvalue

/-- The node of what stands under `items`. -/
def itemsNode? (path : String) : Json → Option Node
  | .obj members => some (.ofJson path (.obj members))
  | .arr _ => some (.primitive none path)
  | _ => none

theorem itemsOf_eq_bind (path : String) (members : List (String × Json)) :
    Node.itemsOf path members = (members.lookup "items").bind (itemsNode? path) := by
  induction members with
  | nil => rfl
  | cons m rest ih =>
    obtain ⟨name, value⟩ := m
    rw [Node.itemsOf.eq_def]
    dsimp only
    by_cases hname : name = "items"
    · subst hname
      rw [if_pos rfl, List.lookup_cons_self, Option.bind_some]
      cases value <;> rfl
    · rw [if_neg hname, List.lookup_cons, beq_eq_false_iff_ne.2 (Ne.symm hname)]
      exact ih

theorem itemsOf_eq {path : String}
    (h : ∀ items, members.lookup "items" = some items → IsTypeSchema items) :
    Node.itemsOf path members = (members.lookup "items").map (Node.ofJson path) := by
  rw [itemsOf_eq_bind]
  cases hitems : members.lookup "items" with
  | none => rfl
  | some items =>
    cases h items hitems with
    | obj => rfl

theorem declaredTypes_eq : Node.declaredTypes members = (typeNames members).filter (· != "null") :=
  rfl

theorem array_mem_declaredTypes :
    (Node.declaredTypes members).contains "array" = true ↔ "array" ∈ typeNames members := by
  simp [declaredTypes_eq]

theorem ofJson_of_isTypeSchema (h : IsTypeSchema (.obj members)) (path : String) :
    Node.ofJson path (.obj members) =
      if (Node.declaredTypes members).contains "array" then
        .list ((members.lookup "items").map (Node.ofJson (Node.itemsPath path))) path
      else .primitive (Node.soleType members) path := by
  cases h with
  | obj honly hitems =>
    have hname : ∀ key, key ≠ "type" → key ≠ "items" → members.lookup key = none := by
      intro key htype hitem
      refine List.lookup_eq_none_iff.2 fun m hm => ?_
      rcases honly m hm with hm | hm <;> rw [hm]
      · simpa using htype
      · simpa using hitem
    rw [Node.ofJson, hname "enum" (by decide) (by decide), hname "$ref" (by decide) (by decide),
      itemsOf_eq hitems]

end DartModels.Schema
