import DartModels.Dart.ClassFile
import DartModels.Proofs.Dart.Acceptance
import DartModels.Proofs.Dart.Objects
import DartModels.Proofs.Naming.Legal

/-! # Value equality

A generated model compares its fields one by one: those of list and map types deeply, all others
bare. Two instances decoded from the same text are equal unless a field of the dynamic type holds a
list or a map.
-/

namespace DartModels.Dart

open Model Naming DartModels.Dart.Value DartModels.Dart.Expr Library

universe u v

variable {κ : Type u} {ι : Type v}

/-- The field that a part of a comparison or of a hash code is about, and whether it is looked
into. -/
structure Clause where
  deep : Bool
  field : String
  deriving DecidableEq, Repr

namespace Clause

def readEquality? (text : List Char) : Option Clause :=
  match nameAfter? "const DeepCollectionEquality().equals(other." text with
  | some (name, rest) =>
    if rest = ", ".toList ++ name ++ [')'] then some ⟨true, String.ofList name⟩ else none
  | none =>
    match nameAfter? "other." text with
    | some (name, rest) =>
      if rest = " == ".toList ++ name then some ⟨false, String.ofList name⟩ else none
    | none => none

def readHash? (text : List Char) : Option Clause :=
  match nameAfter? "const DeepCollectionEquality().hash(" text with
  | some (name, rest) => if rest = [')'] then some ⟨true, String.ofList name⟩ else none
  | none =>
    match nameAfter? "" text with
    | some (name, rest) =>
      if rest = ".hashCode".toList then some ⟨false, String.ofList name⟩ else none
    | none => none

/-- Whether two instances, given by their fields, agree in a field. -/
def equals (L : Library κ) (this other : List (String × Object κ)) (c : Clause) : Bool :=
  match other.lookup c.field, this.lookup c.field with
  | some o, some o' => if c.deep then L.deepEquals o o' else L.bareEquals o o'
  | _, _ => false

def hash? (L : Library κ) (this : List (String × Object κ)) (c : Clause) : Option Nat :=
  (this.lookup c.field).map fun o => if c.deep then L.deepHash o else L.bareHash o

end Clause

/-- The comparison of two different instances of a model, as its text says. -/
def equalInstances (L : Library κ) (o : Options) (m : List Field)
    (this other : List (String × Object κ)) : Bool :=
  m.all fun f => (Clause.readEquality? (equalityText o f).toList).any (·.equals L this other)

/-- The hash code of an instance of a model, as its text says. -/
def instanceHash? (L : Library κ) (o : Options) (name : String) (m : List Field)
    (this : List (String × Object κ)) : Option Nat :=
  if m.isEmpty then some (L.typeHash name)
  else (m.mapM fun f => (Clause.readHash? (hashText o f).toList).bind (·.hash? L this)).map
    (·.foldl (· ^^^ ·) 0)

section Reading

variable {o : Options} {f : Field}

theorem nameAfter?_eq_none {mark : String} {text : List Char} {c : Char} (hc : c ∈ mark.toList)
    (h : c ∉ text) : nameAfter? mark text = none := by
  rw [nameAfter?, Option.map_eq_none_iff, Option.eq_none_iff_forall_ne_some]
  intro rest hrest
  obtain ⟨front, rfl, hfront⟩ := List.dropPrefix?_eq_some_iff.1 hrest
  rw [beq_iff_eq.1 hfront] at h
  exact h (List.mem_append_left _ hc)

theorem readEquality?_equalityText (h : ∀ c ∈ f.name.toList, isIdentifierChar c = true) :
    Clause.readEquality? (equalityText o f).toList = some ⟨isDeep o f, f.name⟩ := by
  unfold equalityText Clause.readEquality?
  cases isDeep o f with
  | true =>
    have htext : (s!"const DeepCollectionEquality().equals(other.{f.name}, {f.name})").toList =
        "const DeepCollectionEquality().equals(other.".toList ++
          (f.name.toList ++ (", ".toList ++ f.name.toList ++ [')'])) := by
      simp [toString]
    rw [if_pos rfl, htext, nameAfter?_append h rfl]
    dsimp only
    rw [if_pos rfl, String.ofList_toList]
  | false =>
    have htext : (s!"other.{f.name} == {f.name}").toList =
        "other.".toList ++ (f.name.toList ++ (" == ".toList ++ f.name.toList)) := by
      simp [toString]
    have hbare : nameAfter? "const DeepCollectionEquality().equals(other."
        ("other.".toList ++ (f.name.toList ++ (" == ".toList ++ f.name.toList))) = none := by
      rfl
    rw [if_neg (by decide), htext, hbare]
    dsimp only
    rw [nameAfter?_append h rfl]
    dsimp only
    rw [if_pos rfl, String.ofList_toList]

theorem readHash?_hashText (h : ∀ c ∈ f.name.toList, isIdentifierChar c = true) :
    Clause.readHash? (hashText o f).toList = some ⟨isDeep o f, f.name⟩ := by
  unfold hashText Clause.readHash?
  cases isDeep o f with
  | true =>
    have htext : (s!"const DeepCollectionEquality().hash({f.name})").toList =
        "const DeepCollectionEquality().hash(".toList ++ (f.name.toList ++ [')']) := by
      simp [toString]
    rw [if_pos rfl, htext, nameAfter?_append h rfl]
    dsimp only
    rw [if_pos rfl, String.ofList_toList]
  | false =>
    have htext : (s!"{f.name}.hashCode").toList =
        "".toList ++ (f.name.toList ++ ".hashCode".toList) := by
      simp [toString]
    have hblank : ' ' ∉ "".toList ++ (f.name.toList ++ ".hashCode".toList) := by
      intro hmem
      rcases List.mem_append.1 hmem with hmem | hmem
      · cases hmem
      · rcases List.mem_append.1 hmem with hmem | hmem
        · exact absurd (h _ hmem) (by decide)
        · exact absurd hmem (by decide)
    rw [if_neg (by decide), htext, nameAfter?_eq_none (by decide) hblank]
    dsimp only
    rw [nameAfter?_append h rfl]
    dsimp only
    rw [if_pos rfl, String.ofList_toList]

end Reading

section Decoding

variable {R : Runtime ι} {scope : String → Option (Value ι)} {source : Expr} {nullable : Bool}
  {v w x : Value ι}

theorem mem_of_lookup {α : Type*} {key : String} {entries : List (String × α)} {a : α}
    (h : entries.lookup key = some a) : (key, a) ∈ entries := by
  obtain ⟨front, rest, rfl, -⟩ := List.lookup_eq_some_iff.1 h
  exact List.mem_append_right _ List.mem_cons_self

theorem forall₂_of_mapM {α β : Type*} {f : α → Option β} {l : List α} {k : List β}
    (h : l.mapM f = some k) : List.Forall₂ (fun a b => f a = some b) l k := by
  induction l generalizing k with
  | nil => exact Option.some.inj h ▸ .nil
  | cons a rest ih =>
    simp only [List.mapM_cons, Option.bind_eq_bind, Option.bind_eq_some_iff, Option.pure_def,
      Option.some.injEq] at h
    obtain ⟨b, hb, images, himages, rfl⟩ := h
    exact .cons hb (ih himages)

theorem exists_of_mem_forall₂ {α β : Type*} {r : α → β → Prop} {l : List α} {k : List β}
    (h : List.Forall₂ r l k) {b : β} (hb : b ∈ k) : ∃ a ∈ l, r a b := by
  induction h with
  | nil => cases hb
  | cons hr _ ih =>
    rcases List.mem_cons.1 hb with rfl | hb
    · exact ⟨_, List.mem_cons_self, hr⟩
    · obtain ⟨a, ha, hab⟩ := ih hb
      exact ⟨a, List.mem_cons_of_mem _ ha, hab⟩

theorem isProper_of_lookup {entries : List (String × Value ι)} (h : (map entries).IsProper)
    (key : String) : ((entries.lookup key).getD .null).IsProper := by
  cases hlookup : entries.lookup key with
  | none => exact .null
  | some w => exact (isProper_map_iff.1 h).2 _ (mem_of_lookup hlookup)

theorem isProper_of_eval_guarded {e : Expr} (hs : eval R scope source = some v)
    (he : ∀ y, eval R scope e = some y → y.IsProper)
    (hx : eval R scope (guarded nullable source e) = some x) : x.IsProper := by
  by_cases hnull : nullable = true ∧ v = .null
  · obtain ⟨rfl, rfl⟩ := hnull
    rw [guarded, if_pos rfl, eval_unlessNull, hs, Option.bind_some, unlessNull_null] at hx
    exact Option.some.inj hx ▸ .null
  · rw [eval_guarded_of_ne hs fun hn hv => hnull ⟨hn, hv⟩] at hx
    exact he x hx

theorem isProper_of_mapItems? {f : Value ι → Option (Value ι)} (hv : v.IsProper)
    (hf : ∀ w y, w.IsProper → f w = some y → y.IsProper) (h : mapItems? nullable f v = some x) :
    x.IsProper := by
  unfold mapItems? at h
  split at h
  · next items =>
    obtain ⟨images, himages, rfl⟩ := Option.map_eq_some_iff.1 h
    refine isProper_list_iff.2 fun y hy => ?_
    obtain ⟨w, hw, hwy⟩ := exists_of_mem_forall₂ (forall₂_of_mapM himages) hy
    exact hf w y (isProper_list_iff.1 hv w hw) hwy
  · split at h
    · exact Option.some.inj h ▸ .null
    · cases h
  · cases h

/-- Decoding brings in no value that differs from itself. -/
theorem isProper_of_eval_decode {t : TypeRef} (hs : eval R scope source = some v)
    (hv : v.IsProper) (hx : eval R scope (decode source nullable t) = some x) : x.IsProper := by
  induction t generalizing scope source nullable v x with
  | dynamic | primitive => exact Option.some.inj (hs.symm.trans hx) ▸ hv
  | model | enumeration =>
    refine isProper_of_eval_guarded hs (fun y hy => ?_) hx
    rw [eval_decoded, hs, Option.bind_some] at hy
    obtain ⟨i, -, rfl⟩ := Option.map_eq_some_iff.1 hy
    exact .instance i
  | list item ih =>
    rw [decode] at hx
    split at hx
    · refine isProper_of_eval_guarded hs (fun y hy => ?_) hx
      rw [eval_listFrom, hs, Option.bind_some] at hy
      exact eq_of_listOf? hy ▸ hv
    · rw [eval_mapItems, eval_asList, hs, Option.bind_some] at hx
      obtain ⟨list, hlist, hx⟩ := Option.bind_eq_some_iff.1 hx
      rw [eq_of_asList? hlist] at hx
      exact isProper_of_mapItems? hv (fun w y hw hy => ih (eval_itemName w) hw hy) hx

end Decoding

section Instances

variable {R : Runtime (Constant ⊕ ι)} {L : Library κ} {view : κ → ι} {o : Options}
  {m : List Field} {v : Value (Constant ⊕ ι)} {x y : List (String × Object κ)}

/-- The values of the fields of an instance. -/
def fieldContents (view : κ → ι) (x : List (String × Object κ)) :
    List (String × Value (Constant ⊕ ι)) :=
  x.map fun e => (e.1, e.2.contents view)

theorem lookup_fieldContents (view : κ → ι) (x : List (String × Object κ)) (name : String) :
    (fieldContents view x).lookup name = (x.lookup name).map (Object.contents view) := by
  induction x with
  | nil => rfl
  | cons e rest ih =>
    rw [fieldContents, List.map_cons, List.lookup_cons, List.lookup_cons, ← fieldContents, ih]
    cases name == e.1 <;> rfl

/-- No list or map is part of both objects. -/
def Separate (o o' : Object κ) : Prop :=
  ∀ identity ∈ o.identities, identity ∉ o'.identities

variable {p q : Object κ} {w : Value (Constant ⊕ ι)} {f : Field}

/-- The bare comparison takes separate lists and maps apart. -/
theorem bareEquals_of_separate (h : p.contents view = q.contents view)
    (hcollection : (p.contents view).isCollection = true) (hseparate : Separate p q) :
    L.bareEquals p q = false := by
  cases p with
  | scalar s => cases s <;> cases hcollection
  | list i items =>
    cases q with
    | list j items' =>
      have hij : i ≠ j := by
        rintro rfl
        exact hseparate i List.mem_cons_self List.mem_cons_self
      exact beq_eq_false_iff_ne.2 hij
    | _ => rfl
  | map i entries =>
    cases q with
    | map j entries' =>
      have hij : i ≠ j := by
        rintro rfl
        exact hseparate i List.mem_cons_self List.mem_cons_self
      exact beq_eq_false_iff_ne.2 hij
    | _ => rfl
  | constant | «instance» => cases hcollection

/-- Of the types that are compared bare, only the dynamic one has lists and maps. -/
theorem not_collection_of_hasType {t : TypeRef} (h : w = .null ∨ HasType R t w)
    (ht : Dart.isCollection t = false) (hdynamic : t ≠ .dynamic) : w.isCollection = false := by
  rcases h with rfl | h
  · rfl
  · cases h with
    | dynamic => exact absurd rfl hdynamic
    | integer | string | boolean | model | enumeration => rfl
    | object | list => cases ht

theorem equals_clause_iff (hp : x.lookup f.name = some p) (hq : y.lookup f.name = some q)
    (h : q.contents view = p.contents view) (hproper : (q.contents view).IsProper)
    (htyped : q.contents view = .null ∨ HasType R f.type (q.contents view))
    (hseparate : Separate q p) (hlaw : L.Lawful view q p) (hdeep : o.deepEquality.holds = true) :
    Clause.equals L x y ⟨isDeep o f, f.name⟩ = true ↔
      (f.type = .dynamic → (q.contents view).isCollection = false) := by
  rw [Clause.equals, hp, hq, isDeep, hdeep, Bool.true_and]
  dsimp only
  cases ht : Dart.isCollection f.type with
  | true =>
    refine iff_of_true (deepEquals_of_contents_eq h hproper hlaw).1 fun hdynamic => ?_
    rw [hdynamic] at ht
    cases ht
  | false =>
    rw [if_neg (by decide)]
    constructor
    · intro hequals _
      by_contra hcollection
      rw [bareEquals_of_separate h (by simpa using hcollection) hseparate] at hequals
      cases hequals
    · intro hplain
      refine (bareEquals_of_contents_eq h hproper ?_ hlaw).1
      by_cases hdynamic : f.type = .dynamic
      · exact hplain hdynamic
      · exact not_collection_of_hasType htyped ht hdynamic

theorem hash_clause_eq (hp : x.lookup f.name = some p) (hq : y.lookup f.name = some q)
    (h : q.contents view = p.contents view) (hproper : (q.contents view).IsProper)
    (htyped : q.contents view = .null ∨ HasType R f.type (q.contents view))
    (hlaw : L.Lawful view q p) (hdeep : o.deepEquality.holds = true)
    (hplain : f.type = .dynamic → (q.contents view).isCollection = false) :
    ∃ n, Clause.hash? L x ⟨isDeep o f, f.name⟩ = some n ∧
      Clause.hash? L y ⟨isDeep o f, f.name⟩ = some n := by
  rw [Clause.hash?, Clause.hash?, hp, hq, Option.map_some, Option.map_some, isDeep, hdeep,
    Bool.true_and]
  dsimp only
  cases ht : Dart.isCollection f.type with
  | true =>
    rw [if_pos rfl, if_pos rfl, (deepEquals_of_contents_eq h hproper hlaw).2]
    exact ⟨_, rfl, rfl⟩
  | false =>
    have hbare : (q.contents view).isCollection = false := by
      by_cases hdynamic : f.type = .dynamic
      · exact hplain hdynamic
      · exact not_collection_of_hasType htyped ht hdynamic
    rw [if_neg (by decide), if_neg (by decide), (bareEquals_of_contents_eq h hproper hbare hlaw).2]
    exact ⟨_, rfl, rfl⟩

/-- What decoding leaves in a field. -/
theorem exists_decoded_field {entries : List (String × Value (Constant ⊕ ι))}
    (hn : (m.map (·.name)).Nodup) (hproper : (map entries).IsProper)
    (hx : decodeModel R m (.map entries) = some (fieldContents view x))
    (htyped : IsInstance R m (fieldContents view x)) (hf : f ∈ m) :
    ∃ p, x.lookup f.name = some p ∧ (p.contents view).IsProper ∧
      (p.contents view = .null ∨ HasType R f.type (p.contents view)) ∧
      (f.type = .dynamic → p.contents view = (entries.lookup f.schemaName).getD .null) := by
  obtain ⟨value, hvalue, hfields⟩ := htyped.exists_values hn
  obtain ⟨hlookup, hftyped⟩ := hfields f hf
  rw [lookup_fieldContents] at hlookup
  obtain ⟨p, hp, hpvalue⟩ := Option.map_eq_some_iff.1 hlookup
  have hdecoded : decodedEntry R (.map entries) f = some (f.name, value f) := by
    rw [hvalue] at hx
    exact List.forall₂_same.1 (List.forall₂_map_right_iff.1 (forall₂_of_mapM hx)) f hf
  obtain ⟨w, hw, hwvalue⟩ := Option.map_eq_some_iff.1 hdecoded
  have hwp : w = p.contents view := (Prod.ext_iff.1 hwvalue).2.trans hpvalue.symm
  rw [hwp] at hw
  have hentry : eval R (fun name => if name = mapName then some (.map entries) else none)
      (.entry f.schemaName) = some ((entries.lookup f.schemaName).getD .null) :=
    eval_entry_of_map (if_pos rfl)
  refine ⟨p, hp, ?_, hpvalue ▸ hftyped, fun hdynamic => ?_⟩
  · exact isProper_of_eval_decode hentry (isProper_of_lookup hproper f.schemaName) hw
  · rw [decodeField, hdynamic, decode, hentry] at hw
    exact (Option.some.inj hw).symm

/-- Two instances of a model that are decoded from the same map and share no list or map. -/
structure DecodedApart (R : Runtime (Constant ⊕ ι)) (view : κ → ι) (m : List Field)
    (entries : List (String × Value (Constant ⊕ ι))) (x y : List (String × Object κ)) : Prop where
  first : decodeModel R m (.map entries) = some (fieldContents view x)
  second : decodeModel R m (.map entries) = some (fieldContents view y)
  typed : IsInstance R m (fieldContents view x)
  separate : ∀ e ∈ x, ∀ e' ∈ y, Separate e'.2 e.2

/-- Whether a field of the dynamic type holds a list or a map decides on its clause. -/
theorem DecodedApart.clauses {entries : List (String × Value (Constant ⊕ ι))}
    (h : DecodedApart R view m entries x y) (hdeep : o.deepEquality.holds = true)
    (hn : (m.map (·.name)).Nodup) (hproper : (map entries).IsProper)
    (hlaw : ∀ e ∈ x, ∀ e' ∈ y, L.Lawful view e'.2 e.2) (hf : f ∈ m) :
    (Clause.equals L x y ⟨isDeep o f, f.name⟩ = true ↔ (f.type = .dynamic →
      ((entries.lookup f.schemaName).getD .null).isCollection = false)) ∧
    ((f.type = .dynamic → ((entries.lookup f.schemaName).getD .null).isCollection = false) →
      ∃ n, Clause.hash? L x ⟨isDeep o f, f.name⟩ = some n ∧
        Clause.hash? L y ⟨isDeep o f, f.name⟩ = some n) := by
  have hsame : fieldContents view x = fieldContents view y :=
    Option.some.inj (h.first.symm.trans h.second)
  obtain ⟨p, hp, -⟩ := exists_decoded_field hn hproper h.first h.typed hf
  obtain ⟨q, hq, hqproper, hqtyped, hqvalue⟩ :=
    exists_decoded_field hn hproper h.second (hsame ▸ h.typed) hf
  have hcontents : q.contents view = p.contents view := by
    have hlookup := congrArg (List.lookup f.name) hsame
    rw [lookup_fieldContents, lookup_fieldContents, hp, hq] at hlookup
    exact (Option.some.inj hlookup).symm
  have hpq := hlaw _ (mem_of_lookup hp) _ (mem_of_lookup hq)
  have hvalue : (f.type = .dynamic → (q.contents view).isCollection = false) ↔
      (f.type = .dynamic → ((entries.lookup f.schemaName).getD .null).isCollection = false) :=
    forall_congr' fun hdynamic => by rw [hqvalue hdynamic]
  rw [← hvalue]
  exact ⟨equals_clause_iff hp hq hcontents hqproper hqtyped
      (h.separate _ (mem_of_lookup hp) _ (mem_of_lookup hq)) hpq hdeep,
    hash_clause_eq hp hq hcontents hqproper hqtyped hpq hdeep⟩

theorem instanceHash?_eq {n : Field → Nat} (name : String)
    (hnames : ∀ f ∈ m, ∀ c ∈ f.name.toList, isIdentifierChar c = true)
    (h : ∀ f ∈ m, Clause.hash? L x ⟨isDeep o f, f.name⟩ = some (n f)) :
    instanceHash? L o name m x =
      some (if m.isEmpty then L.typeHash name else (m.map n).foldl (· ^^^ ·) 0) := by
  have hclauses : m.mapM (fun f => (Clause.readHash? (hashText o f).toList).bind (·.hash? L x)) =
      some (m.map n) := by
    refine mapM_of_forall₂ (List.forall₂_map_right_iff.2 (List.forall₂_same.2 fun f hf => ?_))
    rw [readHash?_hashText (hnames f hf), Option.bind_some, h f hf]
  rw [instanceHash?, hclauses, Option.map_some]
  split <;> rfl

end Instances

/-- Two separate instances that are decoded from the same map are equal exactly if it has neither a
list nor a map for a field of the dynamic type. Equal instances have the same hash code. -/
theorem decoded_equal_iff {R : Runtime (Constant ⊕ ι)} {L : Library κ} {view : κ → ι}
    {d : Schema.Document} {o : Options} {A : Schema.Definition} {a : Analysis}
    (ha : analyze d o A = .ok a) (hdeep : o.deepEquality.holds = true)
    (hn : (a.model.fields.map (·.name)).Nodup) {entries : List (String × Value (Constant ⊕ ι))}
    (hproper : (map entries).IsProper) {x y : List (String × Object κ)}
    (h : DecodedApart R view a.model.fields entries x y)
    (hlaw : ∀ e ∈ x, ∀ e' ∈ y, L.Lawful view e'.2 e.2) :
    (equalInstances L o a.model.fields x y = true ↔ ∀ f ∈ a.model.fields, f.type = .dynamic →
      ((entries.lookup f.schemaName).getD .null).isCollection = false) ∧
    (equalInstances L o a.model.fields x y = true →
      ∃ n, instanceHash? L o a.model.name a.model.fields x = some n ∧
        instanceHash? L o a.model.name a.model.fields y = some n) := by
  have hnames : ∀ f ∈ a.model.fields, ∀ c ∈ f.name.toList, isIdentifierChar c = true := by
    intro f hf
    rw [(field_of_analyze ha hf).2]
    exact fun c => isIdentifierChar_of_mem_fieldName
  have hequal : equalInstances L o a.model.fields x y = true ↔ ∀ f ∈ a.model.fields,
      f.type = .dynamic → ((entries.lookup f.schemaName).getD .null).isCollection = false := by
    rw [equalInstances, List.all_eq_true]
    refine forall₂_congr fun f hf => ?_
    rw [readEquality?_equalityText (hnames f hf), Option.any_some]
    exact (h.clauses hdeep hn hproper hlaw hf).1
  refine ⟨hequal, fun hinstances => ?_⟩
  choose! n hx hy using fun f hf =>
    (h.clauses hdeep hn hproper hlaw (f := f) hf).2 (hequal.1 hinstances f hf)
  exact ⟨_, instanceHash?_eq a.model.name hnames hx, instanceHash?_eq a.model.name hnames hy⟩

def numberedInstances : Runtime (Constant ⊕ Nat) where
  typeName
    | .inl c => c.type
    | .inr _ => Naming.typeName "Item"
  toMap _ := none
  fromMap _
    | .int n => some (.inr n.toNat)
    | _ => none

/-- A definition with fields of the dynamic type, of a list type and of a class. -/
def box : Schema.Definition where
  name := "Box"
  properties := [⟨"data", .primitive none ""⟩, ⟨"tags", .list none ""⟩,
    ⟨"item", .reference "#/definitions/Item" ""⟩]

def boxes : Schema.Document where
  definitions := [box, ⟨"Item", []⟩]

theorem fields_box : (Analysis.ofProperties boxes {} "Box" box.properties).model.fields =
    [⟨"data", "data", .dynamic, true⟩, ⟨"tags", "tags", .list .dynamic, true⟩,
      ⟨"item", "item", .model (typeName "Item") (modelImport {} "Item"), true⟩] := by
  have hresolved : boxes.resolve? "#/definitions/Item" = some ⟨"Item", []⟩ := by rfl
  have hdata : fieldName "data" = "data" := by decide +kernel
  have htags : fieldName "tags" = "tags" := by decide +kernel
  have hitem : fieldName "item" = "item" := by decide +kernel
  simp only [Analysis.fields_ofProperties, box, List.map_cons, List.map_nil, Field.ofProperty,
    resolve, resolveReference, hresolved, Option.map_some, Option.getD_some, Option.bind_none,
    hdata, htags, hitem]

/-- An instance of the model whose dynamic field has some value; the identity of its first list is
given. -/
def boxed (data : Object Nat) (identity : Nat) : List (String × Object Nat) :=
  [("data", data), ("tags", .list identity [.list (identity + 1) []]), ("item", .instance 7)]

theorem lawful_numbered (o o' : Object Nat) : numberedLibrary.Lawful id o o' := by
  intro k l _ _ hkl
  exact ⟨beq_iff_eq.2 hkl, hkl⟩

theorem decodedApart_boxed (data data' : Object Nat) {value : Value (Constant ⊕ Nat)}
    (h : data.contents id = value) (h' : data'.contents id = value) (hjson : value.IsJson)
    (hseparate : ∀ e ∈ boxed data 1, ∀ e' ∈ boxed data' 3, Separate e'.2 e.2) :
    DecodedApart numberedInstances id
      (Analysis.ofProperties boxes {} "Box" box.properties).model.fields
      [("data", value), ("tags", .list [.list []]), ("item", .int 7)] (boxed data 1)
      (boxed data' 3) := by
  have hcontents {data : Object Nat} (h : data.contents id = value) (identity : Nat) :
      fieldContents id (boxed data identity) =
        [("data", value), ("tags", .list [.list []]), ("item", .instance (.inr 7))] := by
    rw [fieldContents, boxed, List.map_cons, h]
    rfl
  have hdecoded : decodeModel numberedInstances
      (Analysis.ofProperties boxes {} "Box" box.properties).model.fields
      (.map [("data", value), ("tags", .list [.list []]), ("item", .int 7)]) =
        some [("data", value), ("tags", .list [.list []]), ("item", .instance (.inr 7))] := by
    rw [fields_box]
    rfl
  refine ⟨hdecoded.trans (congrArg some (hcontents h 1).symm),
    hdecoded.trans (congrArg some (hcontents h' 3).symm), ?_, hseparate⟩
  rw [hcontents h, fields_box]
  have hlist : (Value.list [] : Value (Constant ⊕ Nat)).IsJson := isJson_list_iff.2 nofun
  exact .cons ⟨rfl, .inr (.dynamic hjson)⟩
    (.cons ⟨rfl, .inr (.list (List.forall_mem_singleton.2 (.dynamic hlist)))⟩
      (.cons ⟨rfl, .inr (HasType.model (Sum.inr 7 : Constant ⊕ Nat) _)⟩ .nil))

theorem isProper_boxed {value : Value (Constant ⊕ Nat)} (h : value.IsProper) :
    (map [("data", value), ("tags", .list [.list []]), ("item", .int 7)]).IsProper := by
  refine .map (by decide : ["data", "tags", "item"].Nodup) ?_
  simp only [List.forall_mem_cons]
  exact ⟨h, .list (List.forall_mem_singleton.2 (.list nofun)), .int 7, nofun⟩

theorem nodup_box :
    ((Analysis.ofProperties boxes {} "Box" box.properties).model.fields.map (·.name)).Nodup := by
  rw [fields_box]
  decide

theorem decoded_equal_iff_boxed :
    ∃ a n, analyze boxes {} box = .ok a ∧
      equalInstances numberedLibrary {} a.model.fields (boxed (.scalar (.int 1)) 1)
        (boxed (.scalar (.int 1)) 3) = true ∧
      instanceHash? numberedLibrary {} a.model.name a.model.fields
        (boxed (.scalar (.int 1)) 3) = some n := by
  have ha : analyze boxes {} box = .ok (.ofProperties boxes {} "Box" box.properties) := by rfl
  have happart := decodedApart_boxed (.scalar (.int 1)) (.scalar (.int 1)) rfl rfl nofun
    (by unfold Separate; decide +kernel)
  obtain ⟨hequal, hhash⟩ := decoded_equal_iff ha rfl nodup_box (isProper_boxed (.int 1)) happart
    fun e _ e' _ => lawful_numbered e'.2 e.2
  have hinstances := hequal.2 (by
    rw [fields_box]
    simp only [List.forall_mem_cons, reduceCtorEq, false_implies, true_and, true_implies]
    exact ⟨rfl, List.forall_mem_nil _⟩)
  obtain ⟨n, -, hn⟩ := hhash hinstances
  exact ⟨_, n, ha, hinstances, hn⟩

/-- An empty list in a field of the dynamic type is not equal to itself when decoded again. -/
theorem decoded_not_equal_boxed :
    ∃ a, analyze boxes {} box = .ok a ∧ (a.model.fields.map (·.name)).Nodup ∧
      ∃ (entries : List (String × Value (Constant ⊕ Nat))) (x y : List (String × Object Nat)),
        (map entries).IsProper ∧ DecodedApart numberedInstances id a.model.fields entries x y ∧
          (∀ e ∈ x, ∀ e' ∈ y, numberedLibrary.Lawful id e'.2 e.2) ∧
            equalInstances numberedLibrary {} a.model.fields x y = false := by
  have ha : analyze boxes {} box = .ok (.ofProperties boxes {} "Box" box.properties) := by rfl
  have happart := decodedApart_boxed (.list 5 []) (.list 6 []) rfl rfl
    (isJson_list_iff.2 (List.forall_mem_nil _)) (by unfold Separate; decide +kernel)
  have hproper := isProper_boxed (isProper_list_iff.2 (List.forall_mem_nil _))
  refine ⟨_, ha, nodup_box, _, _, _, hproper, happart,
    fun e _ e' _ => lawful_numbered e'.2 e.2, ?_⟩
  rw [fields_box]
  decide +kernel

end DartModels.Dart
