import DartModels.Proofs.Dart.RoundTrip
import DartModels.Proofs.Schema.Validity

/-! # Which valid values are decoded

The type of a field follows the names under `type`, and where `array` is among them it goes before
all others. Decoding therefore takes every valid value in which no value other than a list stands
where a list is meant, and no null where the type of the items has none.
-/

namespace DartModels

namespace Schema

/-- A schema that names `array`, or a single library type, apart from `null`. -/
def IsTyped (members : List (String × Json)) : Prop :=
  "array" ∈ typeNames members ∨
    ∃ p : Model.Primitive, (typeNames members).filter (· != "null") = [p.name]

/-- A value that is not of the type that is made of a schema. -/
inductive Misfit : Json → Json → Prop
  | null {members : List (String × Json)} : IsTyped members → Misfit (.obj members) .null
  | notList {members : List (String × Json)} {v : Json} : "array" ∈ typeNames members →
      v ≠ .null → (∀ values, v ≠ .arr values) → Misfit (.obj members) v
  | item {members : List (String × Json)} {items w : Json} {values : List Json} :
      "array" ∈ typeNames members → members.lookup "items" = some items → w ∈ values →
      Misfit items w → Misfit (.obj members) (.arr values)

variable {members : List (String × Json)} {v : Json}

/-- Where no list is meant, only null can be amiss. -/
theorem misfit_iff_of_not_array (harray : "array" ∉ typeNames members) :
    Misfit (.obj members) v ↔ v = .null ∧ IsTyped members := by
  constructor
  · intro h
    cases h with
    | null htyped => exact ⟨rfl, htyped⟩
    | notList h => exact absurd h harray
    | item h => exact absurd h harray
  · rintro ⟨rfl, htyped⟩
    exact .null htyped

end Schema

namespace Dart

open Model Schema DartModels.Dart.Value DartModels.Dart.Expr

universe u

variable {ι : Type u}

mutual

/-- JSON data as a value of the generated program. -/
def Value.ofJson : Json → Value ι
  | .null => .null
  | .bool b => .bool b
  | .int n => .int n
  | .float x => .float x
  | .str s => .str s
  | .arr items => .list (Value.ofItems items)
  | .obj members => .map (Value.ofMembers members)

def Value.ofItems : List Json → List (Value ι)
  | [] => []
  | v :: rest => Value.ofJson v :: Value.ofItems rest

def Value.ofMembers : List (String × Json) → List (String × Value ι)
  | [] => []
  | (name, v) :: rest => (name, Value.ofJson v) :: Value.ofMembers rest

end

namespace Value

theorem ofItems_eq_map (items : List Json) :
    (ofItems items : List (Value ι)) = items.map ofJson := by
  induction items with
  | nil => rfl
  | cons v rest ih => rw [ofItems, ih, List.map_cons]

theorem ofJson_arr (items : List Json) :
    (ofJson (.arr items) : Value ι) = .list (items.map ofJson) := by
  rw [ofJson, ofItems_eq_map]

theorem ofJson_eq_null_iff {v : Json} : (ofJson v : Value ι) = .null ↔ v = .null := by
  cases v <;> simp [ofJson]

mutual

theorem isJson_ofJson : ∀ v : Json, (ofJson v : Value ι).IsJson
  | .null | .bool _ | .int _ | .float _ | .str _ => by simp only [ofJson]; exact nofun
  | .arr items => by
    rw [ofJson]
    exact isJson_list_iff.2 (isJson_of_mem_ofItems items)
  | .obj members => by
    rw [ofJson]
    exact isJson_map_iff.2 (isJson_of_mem_ofMembers members)

theorem isJson_of_mem_ofItems : ∀ (items : List Json), ∀ v ∈ (ofItems items : List (Value ι)),
    v.IsJson
  | [] => nofun
  | v :: rest => by
    rw [ofItems]
    exact List.forall_mem_cons.2 ⟨isJson_ofJson v, isJson_of_mem_ofItems rest⟩

theorem isJson_of_mem_ofMembers : ∀ (members : List (String × Json)),
    ∀ e ∈ (ofMembers members : List (String × Value ι)), e.2.IsJson
  | [] => nofun
  | (name, v) :: rest => by
    rw [ofMembers]
    exact List.forall_mem_cons.2 ⟨isJson_ofJson v, isJson_of_mem_ofMembers rest⟩

end

end Value

section Decoding

variable {R : Runtime ι} {scope : String → Option (Value ι)} {source : Expr} {nullable : Bool}
  {t : TypeRef} {v x : Value ι}

theorem eq_of_eval_guarded {e : Expr} (hs : eval R scope source = some v)
    (he : ∀ y, eval R scope e = some y → y = v)
    (hx : eval R scope (guarded nullable source e) = some x) : x = v := by
  by_cases hnull : nullable = true ∧ v = .null
  · obtain ⟨rfl, rfl⟩ := hnull
    rw [guarded, if_pos rfl, eval_unlessNull, hs, Option.bind_some, unlessNull_null] at hx
    exact (Option.some.inj hx).symm
  · rw [eval_guarded_of_ne hs fun hn hv => hnull ⟨hn, hv⟩] at hx
    exact he x hx

theorem eq_of_listOf? {type : String} (h : listOf? type v = some x) : x = v := by
  unfold listOf? at h
  split at h
  · split at h
    · exact (Option.some.inj h).symm
    · cases h
  · cases h

theorem eq_of_asList? (h : asList? nullable v = some x) : x = v := by
  unfold asList? at h
  split at h
  · exact (Option.some.inj h).symm
  · split at h
    · exact (Option.some.inj h).symm
    · cases h
  · cases h

theorem eq_of_mapM {f : Value ι → Option (Value ι)} (hf : ∀ w y, f w = some y → y = w)
    {items images : List (Value ι)} (h : items.mapM f = some images) : images = items := by
  induction items generalizing images with
  | nil => exact (Option.some.inj h).symm
  | cons w rest ih =>
    simp only [List.mapM_cons, Option.bind_eq_bind, Option.bind_eq_some_iff, Option.pure_def,
      Option.some.injEq] at h
    obtain ⟨y, hy, images, himages, rfl⟩ := h
    rw [hf w y hy, ih himages]

theorem eq_of_mapItems? {f : Value ι → Option (Value ι)} (hf : ∀ w y, f w = some y → y = w)
    (h : mapItems? nullable f v = some x) : x = v := by
  unfold mapItems? at h
  split at h
  · next items =>
    obtain ⟨images, himages, rfl⟩ := Option.map_eq_some_iff.1 h
    rw [eq_of_mapM hf himages]
  · split at h
    · exact (Option.some.inj h).symm
    · cases h
  · cases h

/-- Without generated types, decoding yields what it is given or fails. -/
theorem eq_of_eval_decode (ht : isRaw t.leaf = true) (hs : eval R scope source = some v)
    (hx : eval R scope (decode source nullable t) = some x) : x = v := by
  induction t generalizing scope source nullable v x with
  | dynamic | primitive => exact Option.some.inj (hx.symm.trans hs)
  | model | enumeration => cases ht
  | list item ih =>
    rw [decode] at hx
    split at hx
    · refine eq_of_eval_guarded hs (fun y hy => ?_) hx
      rw [eval_listFrom, hs, Option.bind_some] at hy
      exact eq_of_listOf? hy
    · rw [eval_mapItems, eval_asList, hs, Option.bind_some] at hx
      obtain ⟨list, hlist, hx⟩ := Option.bind_eq_some_iff.1 hx
      rw [eq_of_asList? hlist] at hx
      exact eq_of_mapItems? (fun w y hy => ih ht (eval_itemName w) hy) hx

/-- JSON data of a type is decoded to itself. -/
theorem eval_decode_of_isJson (h : HasType R t v) (hv : v.IsJson)
    (hs : eval R scope source = some v) (hn : nullable = true → v ≠ .null) :
    eval R scope (decode source nullable t) = some v := by
  induction h generalizing scope source nullable with
  | dynamic | integer | string | boolean | object => exact hs
  | model i | enumeration => exact absurd .here (hv _)
  | @list item items hi ih =>
    by_cases hraw : isRaw item = true
    · rw [decode, if_pos hraw, eval_guarded_of_ne hs hn,
        eval_listFrom_of_list hs fun v hv => ((hi v hv).of_isRaw hraw).2]
    · have hitems : List.Forall₂ (fun v y =>
          eval R (withItem v scope) (decode (.named itemName) false item) = some y) items items :=
        List.forall₂_same.2 fun v hmem =>
          ih v hmem (isJson_list_iff.1 hv v hmem) (eval_itemName v) fun h => absurd h (by decide)
      rw [decode, if_neg hraw,
        eval_mapItems_of_list (eval_asList_of_list hs) (mapM_of_forall₂ hitems)]

end Decoding

section Types

variable {R : Runtime ι} {d : Document} {o : Options} {property path : String}
  {members : List (String × Json)} {S v : Json}

theorem ofName?_eq_some_iff {name : String} {p : Primitive} :
    Primitive.ofName? name = some p ↔ name = p.name := by
  constructor
  · intro h
    unfold Primitive.ofName? at h
    split at h <;> cases h <;> rfl
  · rintro rfl
    exact Primitive.ofName?_name p

theorem bind_soleType_eq_some_iff {p : Primitive} :
    (Node.soleType members).bind Primitive.ofName? = some p ↔
      (typeNames members).filter (· != "null") = [p.name] := by
  rw [Node.soleType, declaredTypes_eq]
  constructor
  · intro h
    split at h
    · next name hname => rw [hname, ofName?_eq_some_iff.1 h]
    · cases h
  · intro h
    rw [h]
    exact Primitive.ofName?_name p

/-- The type of a schema that names `array` is a list. -/
theorem resolve_of_array (h : IsTypeSchema (.obj members)) (harray : "array" ∈ typeNames members) :
    resolve d o property (Node.ofJson path (.obj members)) =
      .list (((members.lookup "items").map fun items =>
        resolve d o property (Node.ofJson (Node.itemsPath path) items)).getD .dynamic) := by
  rw [ofJson_of_isTypeSchema h, if_pos (array_mem_declaredTypes.2 harray)]
  cases members.lookup "items" <;> rfl

theorem resolve_of_not_array (h : IsTypeSchema (.obj members))
    (harray : "array" ∉ typeNames members) :
    resolve d o property (Node.ofJson path (.obj members)) =
      (((Node.soleType members).bind Primitive.ofName?).map .primitive).getD .dynamic := by
  rw [ofJson_of_isTypeSchema h, if_neg (mt array_mem_declaredTypes.1 harray), resolve]
  cases (Node.soleType members).bind Primitive.ofName? <;> rfl

theorem hasType_primitive_iff {p : Primitive} :
    HasType R (.primitive p) (ofJson v) ↔ p.name ∈ typesOf v := by
  constructor
  · intro h
    cases p <;> cases v <;> simp only [ofJson] at h <;> cases h <;> simp [typesOf, Primitive.name]
  · intro h
    have hjson : (ofJson v : Value ι).IsJson := isJson_ofJson v
    cases p <;> cases v <;> simp [typesOf, Primitive.name] at h <;> simp only [ofJson] at hjson ⊢
    · exact .integer _
    · exact .string _
    · exact .boolean _
    · exact .object hjson

theorem hasType_list_ofJson {t : TypeRef} :
    HasType R (.list t) (ofJson v) ↔
      ∃ values, v = .arr values ∧ ∀ w ∈ values, HasType R t (ofJson w) := by
  constructor
  · intro h
    cases v <;> simp only [ofJson] at h <;> cases h
    next values h =>
      rw [ofItems_eq_map] at h
      exact ⟨values, rfl, fun w hw => h _ (List.mem_map_of_mem hw)⟩
  · rintro ⟨values, rfl, h⟩
    rw [ofJson_arr]
    exact .list (List.forall_mem_map.2 h)

/-- A valid value is of the type that is made of the schema unless it is a misfit. -/
theorem hasType_iff_not_misfit (hS : IsTypeSchema S) (hv : Valid S v) :
    HasType R (resolve d o property (Node.ofJson path S)) (ofJson v) ↔ ¬ Misfit S v := by
  induction hS generalizing v path with
  | @obj members honly hitems ih =>
    have hS := IsTypeSchema.obj honly hitems
    by_cases harray : "array" ∈ typeNames members
    · rw [resolve_of_array hS harray, hasType_list_ofJson]
      cases hv with
      | intro _ hvalid =>
        constructor
        · rintro ⟨values, rfl, hvalues⟩ hmisfit
          cases hmisfit with
          | notList _ _ hlist => exact hlist values rfl
          | item _ hlookup hw hmisfit =>
            rw [hlookup, Option.map_some, Option.getD_some] at hvalues
            exact (ih _ hlookup (hvalid _ _ hlookup rfl _ hw)).1 (hvalues _ hw) hmisfit
        · intro hfits
          have hnull : v ≠ .null := by
            rintro rfl
            exact hfits (.null (.inl harray))
          have hlist : ∃ values, v = .arr values := by
            by_contra hlist
            exact hfits (.notList harray hnull (not_exists.1 hlist))
          obtain ⟨values, rfl⟩ := hlist
          refine ⟨values, rfl, fun w hw => ?_⟩
          cases hlookup : members.lookup "items" with
          | none => exact .dynamic (isJson_ofJson w)
          | some items =>
            exact (ih items hlookup (hvalid _ _ hlookup rfl w hw)).2
              fun hitem => hfits (.item harray hlookup hw hitem)
    · -- no items are looked at, so validity says only which type the value itself has
      rw [resolve_of_not_array hS harray, misfit_iff_of_not_array harray]
      cases hp : (Node.soleType members).bind Primitive.ofName? with
      | none =>
        have huntyped : ¬ IsTyped members := by
          rintro (h | ⟨p, h⟩)
          · exact harray h
          · cases hp.symm.trans (bind_soleType_eq_some_iff.2 h)
        exact iff_of_true (.dynamic (isJson_ofJson v)) fun h => huntyped h.2
      | some p =>
        have hname := bind_soleType_eq_some_iff.1 hp
        rw [Option.map_some, Option.getD_some, hasType_primitive_iff]
        constructor
        · rintro hvalue ⟨rfl, -⟩
          cases p <;> simp [typesOf, Primitive.name] at hvalue
        · intro hnull
          exact mem_typesOf_of_valid hv hname fun h => hnull ⟨h, .inr ⟨p, hname⟩⟩

theorem isRaw_leaf_resolve (hS : IsTypeSchema S) :
    isRaw (resolve d o property (Node.ofJson path S)).leaf = true := by
  induction hS generalizing path with
  | @obj members honly hitems ih =>
    have hS := IsTypeSchema.obj honly hitems
    by_cases harray : "array" ∈ typeNames members
    · rw [resolve_of_array hS harray, TypeRef.leaf]
      cases hlookup : members.lookup "items" with
      | none => rfl
      | some items => exact ih items hlookup
    · rw [resolve_of_not_array hS harray]
      cases (Node.soleType members).bind Primitive.ofName? <;> rfl

end Types

section Examples

/-- A schema of types without items. -/
def typed (type : Json) : Json :=
  .obj [("type", type)]

/-- A schema of types with items. -/
def itemized (type items : Json) : Json :=
  .obj [("type", type), ("items", items)]

variable {type items v : Json} {values : List Json}

theorem isTypeSchema_typed (type : Json) : IsTypeSchema (typed type) :=
  .obj (List.forall_mem_singleton.2 (.inl rfl)) nofun

theorem isTypeSchema_itemized (type : Json) (h : IsTypeSchema items) :
    IsTypeSchema (itemized type items) := by
  refine .obj (List.forall_mem_cons.2 ⟨.inl rfl, List.forall_mem_singleton.2 (.inr rfl)⟩) ?_
  rintro _ ⟨⟩
  exact h

theorem valid_typed (name : String) (hname : name ∈ typeNames [("type", type)])
    (hv : name ∈ typesOf v) : Valid (typed type) v :=
  .intro (fun _ _ => ⟨name, hname, hv⟩) nofun

theorem valid_itemized (htype : "array" ∈ typeNames [("type", type), ("items", items)])
    (h : ∀ w ∈ values, Valid items w) : Valid (itemized type items) (.arr values) := by
  refine .intro (fun _ _ => ⟨"array", htype, List.mem_singleton_self _⟩) ?_
  rintro _ _ ⟨⟩ ⟨⟩
  exact h

theorem not_misfit_itemized (h : ∀ w ∈ values, ¬ Misfit items w) :
    ¬ Misfit (itemized type items) (.arr values) := by
  intro hmisfit
  cases hmisfit with
  | notList _ _ hlist => exact hlist values rfl
  | item _ hlookup hw hmisfit =>
    cases hlookup
    exact h _ hw hmisfit

/-- The scope in which a map with a single entry is decoded. -/
def withEntry (property : String) (v : Json) : String → Option (Value Nat) :=
  fun name => if name = mapName then some (.map [(property, ofJson v)]) else none

/-- Lists of lists of integers, or null. -/
def table : Json :=
  itemized (.arr [.str "array", .str "null"]) (itemized (.str "array") (typed (.str "integer")))

/-- A list, or a text. -/
def listOrText : Json :=
  typed (.arr [.str "array", .str "string"])

/-- A list of texts and nulls. -/
def texts : Json :=
  itemized (.str "array") (typed (.arr [.str "string", .str "null"]))

end Examples

end Dart

end DartModels
