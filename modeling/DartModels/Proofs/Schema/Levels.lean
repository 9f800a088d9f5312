import DartModels.Proofs.Schema.Validity
import DartModels.Schema.Document
import Mathlib.Logic.Function.Iterate

/-! # Levels of lists

A schema may be a schema of lists, whose items may be lists again. What stands at the bottom, and
how many lists are above it, can be told from the schema, and the reader finds just that.
-/

namespace DartModels

/-- The values that a relation has for some items, in the order of the items; an item for which it
has none is passed over. -/
inductive Picks {α β : Type} (R : α → β → Prop) : List α → List β → Prop

  | nil : Picks R [] []

  | hit {a : α} {b : β} {items : List α} {values : List β} :
      R a b → Picks R items values → Picks R (a :: items) (b :: values)

  | miss {a : α} {items : List α} {values : List β} :
      (∀ b, ¬ R a b) → Picks R items values → Picks R (a :: items) values

namespace Picks

variable {α β γ : Type} {R : α → β → Prop} {items : List α}

/-- A function that gives one value or none at every item picks what it gives. -/
theorem of_forall {f : α → List β}
    (h : ∀ a ∈ items, (∃ b, R a b ∧ f a = [b]) ∨ (∀ b, ¬ R a b) ∧ f a = []) :
    Picks R items (items.flatMap f) := by
  induction items with
  | nil => exact .nil
  | cons a rest ih =>
    obtain ⟨ha, hrest⟩ := List.forall_mem_cons.1 h
    rw [List.flatMap_cons]
    rcases ha with ⟨b, hb, hf⟩ | ⟨hnone, hf⟩ <;> rw [hf]
    · exact .hit hb (ih hrest)
    · exact .miss hnone (ih hrest)

theorem comp {S : β → γ → Prop} {values : List β} {others : List γ} (h : Picks R items values)
    (h' : List.Forall₂ S values others) :
    Picks (fun a c => ∃ b, R a b ∧ S b c) items others := by
  induction h generalizing others with
  | nil =>
    cases h'
    exact .nil
  | hit hb _ ih =>
    cases h' with
    | cons hc hrest => exact .hit ⟨_, hb, hc⟩ (ih hrest)
  | miss hnone _ ih => exact .miss (fun c ⟨b, hb, _⟩ => hnone b hb) (ih h')

end Picks

namespace Schema

variable {members : List (String × Json)}

/-- The literals of a schema of an enumeration. -/
def ListsLiterals (members : List (String × Json)) (values : List Json) : Prop :=
  members.lookup "enum" = some (.arr values)

/-- The pointer of a schema that refers elsewhere; literals go before it. -/
structure RefersTo (members : List (String × Json)) (pointer : String) : Prop where
  literals : ∀ values, ¬ ListsLiterals members values
  reference : members.lookup "$ref" = some (.str pointer)

/-- A schema of lists; literals and a reference go before its type. -/
structure IsListSchema (members : List (String × Json)) : Prop where
  literals : ∀ values, ¬ ListsLiterals members values
  reference : ∀ pointer, members.lookup "$ref" ≠ some (.str pointer)
  type : "array" ∈ typeNames members

/-- Below a number of lists stands a schema with a property. -/
inductive AtDepth (P : List (String × Json) → Prop) : Nat → Json → Prop

  | here {members : List (String × Json)} : P members → AtDepth P 0 (.obj members)

  | items {members : List (String × Json)} {inner : Json} {depth : Nat} : IsListSchema members →
      members.lookup "items" = some inner → AtDepth P depth inner →
      AtDepth P (depth + 1) (.obj members)

theorem ofJson_of_listsLiterals {values : List Json} (h : ListsLiterals members values)
    (path : String) : Node.ofJson path (.obj members) =
      .enumeration values ((Node.declaredTypes members).contains "array") path := by
  rw [Node.ofJson, h]

theorem ofJson_of_refersTo {pointer : String} (h : RefersTo members pointer) (path : String) :
    Node.ofJson path (.obj members) = .reference pointer path := by
  rw [Node.ofJson, h.reference]
  split
  · next hliterals => exact absurd hliterals (h.literals _)
  · next heq _ => rw [Json.str.inj (Option.some.inj heq)]
  · next hother => exact (hother pointer rfl).elim

theorem ofJson_of_itemsNode? {path : String} {inner : Json} {node : Node}
    (h : itemsNode? path inner = some node) : Node.ofJson path inner = node := by
  cases inner with
  | obj | arr => exact Option.some.inj h
  | null | bool | int | float | str => cases h

theorem ofJson_of_isListSchema (h : IsListSchema members) (path : String) :
    Node.ofJson path (.obj members) =
      .list ((members.lookup "items").bind (itemsNode? (Node.itemsPath path))) path := by
  rw [Node.ofJson]
  split
  · next hliterals => exact absurd hliterals (h.literals _)
  · next hreference _ => exact absurd hreference (h.reference _)
  · rw [if_pos (array_mem_declaredTypes.2 h.type), itemsOf_eq_bind]

/-- What a schema is read as, and what it must be for that. -/
inductive ReadAs (path : String) : Json → Node → Prop

  | literals {members : List (String × Json)} {values : List Json} {isList : Bool} :
      ListsLiterals members values → ReadAs path (.obj members) (.enumeration values isList path)

  | reference {members : List (String × Json)} {pointer : String} :
      RefersTo members pointer → ReadAs path (.obj members) (.reference pointer path)

  | list {members : List (String × Json)} {items : Option Node} : IsListSchema members →
      (members.lookup "items").bind (itemsNode? (Node.itemsPath path)) = items →
      ReadAs path (.obj members) (.list items path)

  | primitive {schema : Json} {type : Option String} : ReadAs path schema (.primitive type path)

theorem readAs_ofJson (path : String) (schema : Json) :
    ReadAs path schema (.ofJson path schema) := by
  cases schema with
  | obj members =>
    rw [Node.ofJson]
    split
    · next hliterals => exact .literals hliterals
    · next hreference hliterals => exact .reference ⟨hliterals, hreference⟩
    · next hliterals hreference =>
      split
      · next htype =>
        exact .list ⟨hliterals, hreference, array_mem_declaredTypes.1 htype⟩
          (itemsOf_eq_bind _ members).symm
      · exact .primitive
  | null | bool | int | float | str | arr => exact .primitive

namespace Node

/-- What stands at the bottom of all lists. -/
def bottom : Node → Node
  | .list (some items) _ => items.bottom
  | node => node

/-- How many lists are above the bottom. -/
def depth : Node → Nat
  | .list (some items) _ => items.depth + 1
  | _ => 0

theorem depth_of_not_list {node : Node}
    (h : ∀ items path, node = .list (some items) path → False) : node.depth = 0 := by
  rw [depth.eq_def]
  split
  · next items path => exact (h items path rfl).elim
  · rfl

theorem bottom_ne_list (node items : Node) (path : String) :
    node.bottom ≠ .list (some items) path := by
  fun_induction bottom node with
  | case1 _ _ ih => exact ih
  | case2 node hnot => exact hnot items path

end Node

section Bottom

variable {P : List (String × Json) → Prop} {Q : String → Node → Prop} {depth : Nat} {schema : Json}

/-- What stands below lists in a schema stands at the bottom of its node. -/
theorem bottom_of_atDepth (h : ∀ path members, P members → Q path (.ofJson path (.obj members)))
    (hlist : ∀ path items place, ¬ Q path (.list items place)) (hat : AtDepth P depth schema)
    (path : String) : (Node.ofJson path schema).depth = depth ∧
      Q (Node.itemsPath^[depth] path) (Node.ofJson path schema).bottom := by
  induction hat generalizing path with
  | @here members hP =>
    have hQ := h path members hP
    generalize Node.ofJson path (.obj members) = node at hQ ⊢
    cases node with
    | list items place => exact absurd hQ (hlist path items place)
    | primitive | enumeration | reference => exact ⟨rfl, hQ⟩
  | @items members inner depth hschema hitems hinner ih =>
    have hnode : Node.ofJson path (.obj members) =
        .list (some (.ofJson (Node.itemsPath path) inner)) path := by
      rw [ofJson_of_isListSchema hschema, hitems]
      cases hinner <;> rfl
    obtain ⟨hdepth, hQ⟩ := ih (Node.itemsPath path)
    rw [hnode, Node.depth, Node.bottom, hdepth]
    exact ⟨rfl, hQ⟩

/-- A list of a schema's node is the node of the items, at their path. -/
theorem exists_items_of_ofJson {path place : String} {items : Node}
    (h : Node.ofJson path schema = .list (some items) place) :
    ∃ members inner, schema = .obj members ∧ IsListSchema members ∧
      members.lookup "items" = some inner ∧ Node.ofJson (Node.itemsPath path) inner = items := by
  cases h ▸ readAs_ofJson path schema with
  | @list members _ hschema hitems =>
    obtain ⟨inner, hinner, hnode⟩ := Option.bind_eq_some_iff.1 hitems
    exact ⟨members, inner, rfl, hschema, hinner, ofJson_of_itemsNode? hnode⟩

/-- What stands at the bottom of a node stands below lists in its schema. -/
theorem atDepth_of_bottom (h : ∀ path members, Q path (.ofJson path (.obj members)) → P members)
    (hprimitive : ∀ path type place, ¬ Q path (.primitive type place)) (path : String)
    (schema : Json)
    (hQ : Q (Node.itemsPath^[(Node.ofJson path schema).depth] path)
      (Node.ofJson path schema).bottom) :
    AtDepth P (Node.ofJson path schema).depth schema := by
  generalize hnode : Node.ofJson path schema = node at hQ ⊢
  fun_induction Node.bottom node generalizing path schema with
  | case1 items place ih =>
    obtain ⟨members, inner, rfl, hschema, hinner, hitems⟩ := exists_items_of_ofJson hnode
    exact .items hschema hinner (ih _ inner hitems hQ)
  | case2 node hnot =>
    subst hnode
    cases schema with
    | obj members =>
      have hdepth : (Node.ofJson path (.obj members)).depth = 0 := Node.depth_of_not_list hnot
      rw [hdepth] at hQ ⊢
      exact .here (h path members hQ)
    | null | bool | int | float | str | arr => exact absurd hQ (hprimitive _ _ _)

theorem path_bottom (path : String) (schema : Json) : (Node.ofJson path schema).bottom.path =
    Node.itemsPath^[(Node.ofJson path schema).depth] path := by
  generalize hnode : Node.ofJson path schema = node
  fun_induction Node.bottom node generalizing path schema with
  | case1 items place ih =>
    obtain ⟨members, inner, rfl, -, -, hitems⟩ := exists_items_of_ofJson hnode
    exact ih _ inner hitems
  | case2 node hnot =>
    rw [Node.depth_of_not_list hnot, Function.iterate_zero_apply]
    cases hnode ▸ readAs_ofJson path schema <;> rfl

theorem atDepth_iff (h : ∀ path members, P members ↔ Q path (.ofJson path (.obj members)))
    (hlist : ∀ path items place, ¬ Q path (.list items place))
    (hprimitive : ∀ path type place, ¬ Q path (.primitive type place)) (path : String) :
    AtDepth P depth schema ↔ (Node.ofJson path schema).depth = depth ∧
      Q (Node.itemsPath^[depth] path) (Node.ofJson path schema).bottom := by
  constructor
  · exact fun hat => bottom_of_atDepth (fun path members => (h path members).1) hlist hat path
  · rintro ⟨rfl, hQ⟩
    exact atDepth_of_bottom (fun path members => (h path members).2) hprimitive path schema hQ

end Bottom

/-- Which literals a schema lists below its lists, as its node tells. -/
theorem atDepth_listsLiterals_iff (path : String) {depth : Nat} {schema : Json}
    {values : List Json} :
    AtDepth (ListsLiterals · values) depth schema ↔ (Node.ofJson path schema).depth = depth ∧
      ∃ isList place, (Node.ofJson path schema).bottom = .enumeration values isList place := by
  refine atDepth_iff (Q := fun _ node => ∃ isList place, node = .enumeration values isList place)
    (fun path members => ⟨fun h => ⟨_, _, ofJson_of_listsLiterals h path⟩, ?_⟩) ?_ ?_ path
  · rintro ⟨isList, place, h⟩
    cases h ▸ readAs_ofJson path (.obj members) with
    | literals hliterals => exact hliterals
  · rintro path items place ⟨_, _, h⟩
    cases h
  · rintro path type place ⟨_, _, h⟩
    cases h

/-- Where a schema refers to below its lists, as its node tells. -/
theorem atDepth_refersTo_iff (path : String) {depth : Nat} {schema : Json} {pointer : String} :
    AtDepth (RefersTo · pointer) depth schema ↔ (Node.ofJson path schema).depth = depth ∧
      (Node.ofJson path schema).bottom = .reference pointer (Node.itemsPath^[depth] path) := by
  refine atDepth_iff (Q := fun path node => node = .reference pointer path)
    (fun path members => ⟨fun h => ofJson_of_refersTo h path, fun h => ?_⟩) nofun nofun path
  cases h ▸ readAs_ofJson path (.obj members) with
  | reference hrefers => exact hrefers

end Schema

end DartModels
