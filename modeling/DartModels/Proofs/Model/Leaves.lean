import DartModels.Proofs.Model.Analysis
import DartModels.Proofs.Schema.Levels

/-! # What stands below lists

The type of a property has as many lists as its schema, and below them what the schema has at the
bottom: an enumeration, a model, or the dynamic type where a reference leads nowhere.
-/

namespace DartModels.Model

open Naming Schema

variable {d : Document} {o : Options}

theorem resolve_eq (d : Document) (o : Options) (property : String) (node : Node) :
    resolve d o property node = TypeRef.list^[node.depth] (resolve d o property node.bottom) := by
  fun_induction Node.bottom node with
  | case1 items path ih => rw [resolve, ih, Node.depth, Function.iterate_succ_apply']
  | case2 node hnot => rw [Node.depth_of_not_list hnot, Function.iterate_zero_apply]

theorem unresolved_eq (d : Document) (node : Node) :
    unresolved d node = unresolved d node.bottom := by
  fun_induction Node.bottom node with
  | case1 items path ih => rw [unresolved, ih]
  | case2 => rfl

/-- What lists themselves do not have is had by what they are lists of. -/
theorem filterMap_walk_lists {α : Type} {f : TypeRef → Option α}
    (hf : ∀ item, f (.list item) = none) (depth : Nat) (t : TypeRef) :
    (TypeRef.list^[depth] t).walk.filterMap f = t.walk.filterMap f := by
  induction depth with
  | zero => rfl
  | succ depth ih =>
    rw [Function.iterate_succ_apply', TypeRef.walk, List.filterMap_cons_none (hf _), ih]

/-- The literals that a schema lists, below any number of lists. -/
def Reaches (schema : Json) (values : List Json) : Prop :=
  ∃ depth, AtDepth (ListsLiterals · values) depth schema

/-- Only literals at the bottom declare an enumeration. -/
theorem enumerations_eq (d : Document) (o : Options) (p : Property) :
    (Field.ofProperty d o p).enumerations =
      match p.node.bottom with
      | .enumeration values _ _ => [.ofValues p.name values]
      | _ => [] := by
  rw [Field.enumerations, Field.ofProperty, resolve_eq, filterMap_walk_lists fun _ => rfl]
  cases hbottom : p.node.bottom with
  | primitive type =>
    rw [resolve]
    cases type.bind Primitive.ofName? <;> rfl
  | enumeration values isList =>
    rw [resolve]
    cases isList <;> rfl
  | reference pointer =>
    rw [resolve, resolveReference]
    cases d.resolve? pointer <;> rfl
  | list items path =>
    cases items with
    | none => rfl
    | some items => exact absurd hbottom (Node.bottom_ne_list p.node items path)

theorem reaches_iff (path : String) {schema : Json} {values : List Json} :
    Reaches schema values ↔ ∃ isList place,
      (Node.ofJson path schema).bottom = .enumeration values isList place := by
  constructor
  · rintro ⟨depth, hat⟩
    exact ((atDepth_listsLiterals_iff path).1 hat).2
  · exact fun h => ⟨_, (atDepth_listsLiterals_iff path).2 ⟨rfl, h⟩⟩

/-- The enumeration that a property declares inline, of the literals that its schema reaches. -/
def DeclaresInline (p : String × Json) (e : Enumeration) : Prop :=
  ∃ values, Reaches p.2 values ∧ e = .ofValues p.1 values

/-- A field has the enumeration that its property declares inline, and no other. -/
theorem enumerations_ofJson (d : Document) (o : Options) (path : String) (p : String × Json) :
    let declared := (Field.ofProperty d o ⟨p.1, .ofJson path p.2⟩).enumerations
    (∃ e, DeclaresInline p e ∧ declared = [e]) ∨
      (∀ e, ¬ DeclaresInline p e) ∧ declared = [] := by
  simp only [DeclaresInline, reaches_iff path, enumerations_eq]
  cases (Node.ofJson path p.2).bottom with
  | enumeration values isList place => exact .inl ⟨_, ⟨values, ⟨isList, place, rfl⟩, rfl⟩, rfl⟩
  | primitive | reference | list => exact .inr ⟨by simp, rfl⟩

/-- What is noted of a schema at a place of the document: a reference below lists that leads
nowhere. The lists are told by the path. -/
def Dangles (d : Document) (place : String × Json) (u : Unresolved) : Prop :=
  d.resolve? u.pointer = none ∧ ∃ depth, AtDepth (RefersTo · u.pointer) depth place.2 ∧
    u.path = Node.itemsPath^[depth] place.1

theorem dangles_iff {place : String × Json} {u : Unresolved} :
    Dangles d place u ↔ d.resolve? u.pointer = none ∧
      (Node.ofJson place.1 place.2).bottom = .reference u.pointer u.path := by
  refine and_congr_right fun _ => ?_
  constructor
  · rintro ⟨depth, hat, hpath⟩
    rw [hpath]
    exact ((atDepth_refersTo_iff place.1).1 hat).2
  · intro hbottom
    have hpath : u.path = _ := hbottom ▸ path_bottom place.1 place.2
    exact ⟨_, (atDepth_refersTo_iff place.1).2 ⟨rfl, hpath ▸ hbottom⟩, hpath⟩

theorem unresolved_ofJson (d : Document) (place : String × Json) :
    (∃ u, Dangles d place u ∧ unresolved d (.ofJson place.1 place.2) = [u]) ∨
      (∀ u, ¬ Dangles d place u) ∧ unresolved d (.ofJson place.1 place.2) = [] := by
  simp only [dangles_iff]
  rw [unresolved_eq]
  cases hbottom : (Node.ofJson place.1 place.2).bottom with
  | reference pointer path =>
    rw [unresolved]
    cases hresolve : d.resolve? pointer with
    | none => exact .inl ⟨⟨pointer, path⟩, ⟨hresolve, rfl⟩, rfl⟩
    | some D =>
      refine .inr ⟨?_, rfl⟩
      rintro u ⟨hnone, hreference⟩
      obtain ⟨rfl, -⟩ := Node.reference.inj hreference
      cases hresolve.symm.trans hnone
  | primitive | enumeration => exact .inr ⟨nofun, rfl⟩
  | list items path =>
    cases items with
    | none => exact .inr ⟨nofun, rfl⟩
    | some items => exact absurd hbottom (Node.bottom_ne_list _ items path)

/-- A reference that leads nowhere leaves the dynamic type below its lists, and no import. -/
theorem Dangles.field {place : String × Json} {u : Unresolved} (h : Dangles d place u)
    (o : Options) (name : String) :
    let field := Field.ofProperty d o ⟨name, .ofJson place.1 place.2⟩
    field.imports = [] ∧ ∃ depth, u.path = Node.itemsPath^[depth] place.1 ∧
      field.type = TypeRef.list^[depth] .dynamic := by
  obtain ⟨hnone, depth, hat, hpath⟩ := h
  obtain ⟨hdepth, hbottom⟩ := (atDepth_refersTo_iff place.1).1 hat
  have htype : resolve d o name (.ofJson place.1 place.2) = TypeRef.list^[depth] .dynamic := by
    rw [resolve_eq, hdepth, hbottom, resolve, resolveReference, hnone, Option.map_none,
      Option.getD_none]
  refine ⟨?_, depth, hpath, htype⟩
  rw [Field.imports, Field.ofProperty, htype, filterMap_walk_lists fun _ => rfl]
  rfl

end DartModels.Model
