import DartModels.Proofs.Binary64.Value
import DartModels.Proofs.Dart.RoundTrip

/-! # Objects

What the variables of the generated program refer to. Lists and maps have an identity, by which they
are compared; the deep comparison looks at what they hold instead. Separate objects with the same
contents are equal to the deep comparison, and to the bare one unless they are lists or maps.
-/

namespace DartModels.Dart

universe u v

inductive Scalar
  | null
  | bool (value : Bool)
  | int (value : Int)
  | float (value : Binary64)
  | str (value : String)
  deriving DecidableEq, Repr

namespace Scalar

/-- The value of a finite number of either type. -/
def number? : Scalar → Option ℚ
  | .int n => some n
  | .float x => x.value?
  | _ => none

/-- Comparison by value, across the two types of numbers. What is not a number differs from
itself. -/
def equals : Scalar → Scalar → Bool
  | .null, .null => true
  | .bool a, .bool b => a == b
  | .str s, .str t => s == t
  | .float (.infinite a), .float (.infinite b) => a == b
  | s, t => s.number?.isSome && s.number? == t.number?

/-- The value that a scalar is. -/
def toValue {ι : Type v} : Scalar → Value ι
  | .null => .null
  | .bool b => .bool b
  | .int n => .int n
  | .float x => .float x
  | .str s => .str s

theorem toValue_inj {ι : Type v} {s t : Scalar} :
    (s.toValue : Value ι) = t.toValue ↔ s = t := by
  cases s <;> cases t <;> simp [toValue]

theorem equals_self {s : Scalar} (h : s ≠ .float .nan) : s.equals s = true := by
  cases s with
  | null => rfl
  | bool | str => simp [equals]
  | int n => simp [equals, number?]
  | float x =>
    cases x with
    | nan => exact absurd rfl h
    | infinite negative => simp [equals]
    | finite => simp [equals, number?, Binary64.value?]

end Scalar

/-- A member of a generated enumeration. -/
structure Constant where
  type : String
  name : String
  deriving DecidableEq, Repr

/-- What a variable refers to; `κ` is the type of the instances of classes. -/
inductive Object (κ : Type u)
  | scalar (value : Scalar)
  | list (identity : Nat) (items : List (Object κ))
  | map (identity : Nat) (entries : List (String × Object κ))
  | constant (member : Constant)
  | instance (object : κ)

/-- How instances are compared and hashed, and the hash codes that the library chooses. -/
structure Library (κ : Type u) where
  equals : κ → Object κ → Bool
  hash : κ → Nat
  typeHash : String → Nat
  scalarHash : Scalar → Nat
  constantHash : Constant → Nat
  identityHash : Nat → Nat
  itemsHash : List Nat → Nat
  entriesHash : List (String × Nat) → Nat

variable {κ : Type u} {ι : Type v}

namespace Object

/-- An object is part of another one that is reached through lists and maps only. -/
inductive Part (p : Object κ) : Object κ → Prop
  | self : Part p p
  | item {o : Object κ} {identity : Nat} {items : List (Object κ)} :
      o ∈ items → Part p o → Part p (.list identity items)
  | entry {e : String × Object κ} {identity : Nat} {entries : List (String × Object κ)} :
      e ∈ entries → Part p e.2 → Part p (.map identity entries)

@[elab_as_elim]
theorem induction {motive : Object κ → Prop} (scalar : ∀ s, motive (.scalar s))
    (list : ∀ i items, (∀ o ∈ items, motive o) → motive (.list i items))
    (map : ∀ i entries, (∀ e ∈ entries, motive e.2) → motive (.map i entries))
    (constant : ∀ c, motive (.constant c)) (object : ∀ k, motive (.instance k)) :
    ∀ o, motive o
  | .scalar s => scalar s
  | .list i items => list i items fun o _ => induction scalar list map constant object o
  | .map i entries => map i entries fun e _ => induction scalar list map constant object e.2
  | .constant c => constant c
  | .instance k => object k
decreasing_by
  · have := List.sizeOf_lt_of_mem ‹o ∈ items›
    rw [Object.list.sizeOf_spec]
    omega
  · have := List.sizeOf_lt_of_mem ‹e ∈ entries›
    have : sizeOf e = 1 + sizeOf e.1 + sizeOf e.2 := rfl
    rw [Object.map.sizeOf_spec]
    omega

mutual

/-- The identities of the lists and maps that are part of an object. -/
def identities : Object κ → List Nat
  | .list identity items => identity :: itemIdentities items
  | .map identity entries => identity :: entryIdentities entries
  | _ => []

def itemIdentities : List (Object κ) → List Nat
  | [] => []
  | o :: rest => o.identities ++ itemIdentities rest

def entryIdentities : List (String × Object κ) → List Nat
  | [] => []
  | (_, o) :: rest => o.identities ++ entryIdentities rest

end

section Contents

variable (view : κ → ι)

mutual

/-- What an object holds, without the identities of lists and maps. -/
def contents : Object κ → Value (Constant ⊕ ι)
  | .scalar s => s.toValue
  | .list _ items => .list (itemContents items)
  | .map _ entries => .map (entryContents entries)
  | .constant c => .instance (.inl c)
  | .instance k => .instance (.inr (view k))

def itemContents : List (Object κ) → List (Value (Constant ⊕ ι))
  | [] => []
  | o :: rest => o.contents :: itemContents rest

def entryContents : List (String × Object κ) → List (String × Value (Constant ⊕ ι))
  | [] => []
  | (key, o) :: rest => (key, o.contents) :: entryContents rest

end

theorem itemContents_eq_map (items : List (Object κ)) :
    itemContents view items = items.map (contents view) := by
  induction items with
  | nil => rfl
  | cons o rest ih => rw [itemContents, ih, List.map_cons]

theorem entryContents_eq_map (entries : List (String × Object κ)) :
    entryContents view entries = entries.map fun e => (e.1, e.2.contents view) := by
  induction entries with
  | nil => rfl
  | cons e rest ih => rw [entryContents, ih, List.map_cons]

end Contents

end Object

namespace Value

/-- A value as it is read from a text: a number is a number, and no key of a map stands twice. -/
inductive IsProper : Value ι → Prop
  | null : IsProper .null
  | bool (b : Bool) : IsProper (.bool b)
  | int (n : Int) : IsProper (.int n)
  | float {x : Binary64} : x ≠ .nan → IsProper (.float x)
  | str (s : String) : IsProper (.str s)
  | list {items : List (Value ι)} : (∀ v ∈ items, IsProper v) → IsProper (.list items)
  | map {entries : List (String × Value ι)} : (entries.map (·.1)).Nodup →
      (∀ e ∈ entries, IsProper e.2) → IsProper (.map entries)
  | instance (i : ι) : IsProper (.instance i)

theorem isProper_list_iff {items : List (Value ι)} :
    (list items).IsProper ↔ ∀ v ∈ items, v.IsProper := by
  constructor
  · intro h
    cases h with
    | list hitems => exact hitems
  · exact .list

theorem isProper_map_iff {entries : List (String × Value ι)} :
    (map entries).IsProper ↔ (entries.map (·.1)).Nodup ∧ ∀ e ∈ entries, e.2.IsProper := by
  constructor
  · intro h
    cases h with
    | map hkeys hentries => exact ⟨hkeys, hentries⟩
  · exact fun ⟨hkeys, hentries⟩ => .map hkeys hentries

/-- Whether a value is a list or a map. -/
def isCollection : Value ι → Bool
  | .list _ | .map _ => true
  | _ => false

end Value

section Lists

variable {α β γ : Type*} {f : α → γ} {g : β → γ} {xs : List α} {ys : List β}

theorem forall₂_mem_of_map_eq (h : xs.map f = ys.map g) :
    List.Forall₂ (fun x y => x ∈ xs ∧ y ∈ ys ∧ f x = g y) xs ys := by
  have himages : List.Forall₂ (fun x y => f x = g y) xs ys :=
    List.forall₂_map_left_iff.1 (List.forall₂_map_right_iff.1 (List.forall₂_eq_eq_eq ▸ h))
  refine List.forall₂_iff_zip.2 ⟨himages.length_eq, fun hmem => ?_⟩
  obtain ⟨hx, hy⟩ := List.of_mem_zip hmem
  exact ⟨hx, hy, List.forall₂_zip himages hmem⟩

theorem map_eq_of_forall₂ (h : List.Forall₂ (fun x y => f x = g y) xs ys) :
    xs.map f = ys.map g := by
  induction h with
  | nil => rfl
  | cons hxy _ ih => rw [List.map_cons, List.map_cons, hxy, ih]

end Lists

namespace Library

variable (L : Library κ)

/-- The bare comparison. -/
def bareEquals : Object κ → Object κ → Bool
  | .scalar s, .scalar t => s.equals t
  | .list i _, .list j _ => i == j
  | .map i _, .map j _ => i == j
  | .constant c, .constant d => c == d
  | .instance k, o => L.equals k o
  | _, _ => false

def bareHash : Object κ → Nat
  | .scalar s => L.scalarHash s
  | .list i _ => L.identityHash i
  | .map i _ => L.identityHash i
  | .constant c => L.constantHash c
  | .instance k => L.hash k

mutual

/-- The deep comparison. The order of the entries of a map does not count. -/
def deepEquals : Object κ → Object κ → Bool
  | .list _ items, .list _ items' => deepEqualItems items items'
  | .map _ entries, .map _ entries' =>
    entries.length == entries'.length && deepEqualEntries entries entries'
  | o, o' => L.bareEquals o o'

def deepEqualItems : List (Object κ) → List (Object κ) → Bool
  | [], [] => true
  | o :: rest, o' :: rest' => deepEquals o o' && deepEqualItems rest rest'
  | _, _ => false

def deepEqualEntries : List (String × Object κ) → List (String × Object κ) → Bool
  | [], _ => true
  | (key, o) :: rest, entries' =>
    (match entries'.lookup key with
      | none => false
      | some o' => deepEquals o o') && deepEqualEntries rest entries'

end

mutual

def deepHash : Object κ → Nat
  | .list _ items => L.itemsHash (deepHashItems items)
  | .map _ entries => L.entriesHash (deepHashEntries entries)
  | o => L.bareHash o

def deepHashItems : List (Object κ) → List Nat
  | [] => []
  | o :: rest => deepHash o :: deepHashItems rest

def deepHashEntries : List (String × Object κ) → List (String × Nat)
  | [] => []
  | (key, o) :: rest => (key, deepHash o) :: deepHashEntries rest

end

section Equations

theorem deepHashItems_eq_map (items : List (Object κ)) :
    L.deepHashItems items = items.map L.deepHash := by
  induction items with
  | nil => rfl
  | cons o rest ih => rw [deepHashItems, ih, List.map_cons]

theorem deepHashEntries_eq_map (entries : List (String × Object κ)) :
    L.deepHashEntries entries = entries.map fun e => (e.1, L.deepHash e.2) := by
  induction entries with
  | nil => rfl
  | cons e rest ih => rw [deepHashEntries, ih, List.map_cons]

variable {L}

theorem deepEqualItems_of_forall₂ {items items' : List (Object κ)}
    (h : List.Forall₂ (fun o o' => L.deepEquals o o' = true) items items') :
    L.deepEqualItems items items' = true := by
  induction h with
  | nil => rfl
  | cons ho _ ih => rw [deepEqualItems, ho, ih, Bool.and_self]

theorem deepEqualEntries_of_lookup {entries entries' : List (String × Object κ)}
    (h : ∀ e ∈ entries, ∃ o, entries'.lookup e.1 = some o ∧ L.deepEquals e.2 o = true) :
    L.deepEqualEntries entries entries' = true := by
  induction entries with
  | nil => rfl
  | cons e rest ih =>
    obtain ⟨⟨o, hlookup, ho⟩, hrest⟩ := List.forall_mem_cons.1 h
    rw [deepEqualEntries, hlookup, ih hrest, Bool.and_true]
    exact ho

end Equations

/-- The law of value equality, for the instances that are part of two objects. -/
def Lawful (L : Library κ) (view : κ → ι) (o o' : Object κ) : Prop :=
  ∀ k l, (Object.instance k).Part o → (Object.instance l).Part o' → view k = view l →
    L.equals k (.instance l) = true ∧ L.hash k = L.hash l

section Contents

variable {L : Library κ} {view : κ → ι} {o o' : Object κ}

/-- What is neither a list nor a map is compared by its contents. -/
theorem bareEquals_of_contents_eq (h : o.contents view = o'.contents view)
    (hproper : (o.contents view).IsProper) (hplain : (o.contents view).isCollection = false)
    (hlaw : L.Lawful view o o') :
    L.bareEquals o o' = true ∧ L.bareHash o = L.bareHash o' := by
  cases o with
  | scalar s =>
    cases o' with
    | scalar t =>
      simp only [Object.contents, Scalar.toValue_inj] at h
      subst h
      refine ⟨Scalar.equals_self ?_, rfl⟩
      rintro rfl
      simp only [Object.contents, Scalar.toValue] at hproper
      cases hproper with
      | float hnumber => exact hnumber rfl
    | _ => cases s <;> simp [Object.contents, Scalar.toValue] at h
  | list => simp [Object.contents, Value.isCollection] at hplain
  | map => simp [Object.contents, Value.isCollection] at hplain
  | constant c =>
    cases o' with
    | scalar t => cases t <;> simp [Object.contents, Scalar.toValue] at h
    | constant d =>
      simp only [Object.contents, Value.instance.injEq, Sum.inl.injEq] at h
      subst h
      simp [bareEquals]
    | _ => simp [Object.contents] at h
  | «instance» k =>
    cases o' with
    | scalar t => cases t <;> simp [Object.contents, Scalar.toValue] at h
    | «instance» l =>
      simp only [Object.contents, Value.instance.injEq, Sum.inr.injEq] at h
      exact hlaw k l .self .self h
    | _ => simp [Object.contents] at h

theorem deepEquals_of_plain (hplain : (o.contents view).isCollection = false)
    (h : o.contents view = o'.contents view) (hproper : (o.contents view).IsProper)
    (hlaw : L.Lawful view o o') :
    L.deepEquals o o' = true ∧ L.deepHash o = L.deepHash o' := by
  have hequals : L.deepEquals o o' = L.bareEquals o o' := by
    cases o with
    | list | map => simp [Object.contents, Value.isCollection] at hplain
    | _ => cases o' <;> rfl
  have hhash (o : Object κ) (hplain : (o.contents view).isCollection = false) :
      L.deepHash o = L.bareHash o := by
    cases o with
    | list | map => simp [Object.contents, Value.isCollection] at hplain
    | _ => rfl
  rw [hequals, hhash o hplain, hhash o' (h ▸ hplain)]
  exact bareEquals_of_contents_eq h hproper hplain hlaw

/-- To the deep comparison, objects with the same contents are equal. -/
theorem deepEquals_of_contents_eq (h : o.contents view = o'.contents view)
    (hproper : (o.contents view).IsProper) (hlaw : L.Lawful view o o') :
    L.deepEquals o o' = true ∧ L.deepHash o = L.deepHash o' := by
  induction o using Object.induction generalizing o' with
  | list i items ih =>
    cases o' with
    | list j items' =>
      simp only [Object.contents, Object.itemContents_eq_map, Value.list.injEq] at h hproper
      have hitems := Value.isProper_list_iff.1 hproper
      have hagree : List.Forall₂ (fun o o' => L.deepEquals o o' = true ∧
          L.deepHash o = L.deepHash o') items items' :=
        (forall₂_mem_of_map_eq h).imp fun o o' ⟨ho, ho', heq⟩ =>
          ih o ho heq (hitems _ (List.mem_map_of_mem ho))
            fun k l hk hl => hlaw k l (.item ho hk) (.item ho' hl)
      refine ⟨deepEqualItems_of_forall₂ (hagree.imp fun _ _ h => h.1), ?_⟩
      rw [deepHash, deepHash, deepHashItems_eq_map, deepHashItems_eq_map,
        map_eq_of_forall₂ (hagree.imp fun _ _ h => h.2)]
    | scalar t => cases t <;> simp [Object.contents, Scalar.toValue] at h
    | _ => simp [Object.contents] at h
  | map i entries ih =>
    cases o' with
    | map j entries' =>
      simp only [Object.contents, Object.entryContents_eq_map, Value.map.injEq] at h hproper
      obtain ⟨hkeys, hentries⟩ := Value.isProper_map_iff.1 hproper
      have hagree : ∀ e ∈ entries, ∀ e' ∈ entries',
          (e.1, e.2.contents view) = (e'.1, e'.2.contents view) →
            L.deepEquals e.2 e'.2 = true ∧ L.deepHash e.2 = L.deepHash e'.2 :=
        fun e he e' he' heq => ih e he (Prod.ext_iff.1 heq).2
          (hentries (e.1, e.2.contents view) (List.mem_map_of_mem he))
          fun k l hk hl => hlaw k l (.entry he hk) (.entry he' hl)
      have hkeys' : (entries'.map (·.1)).Nodup := by
        rw [h, List.map_map] at hkeys
        exact hkeys
      constructor
      · rw [deepEquals, Bool.and_eq_true, beq_iff_eq]
        refine ⟨by simpa using congrArg List.length h,
          deepEqualEntries_of_lookup fun e he => ?_⟩
        obtain ⟨e', he', heq⟩ := List.mem_map.1 (h ▸ List.mem_map_of_mem he)
        have hlookup := lookup_of_mem hkeys' he'
        rw [(Prod.ext_iff.1 heq).1] at hlookup
        exact ⟨e'.2, hlookup, (hagree e he e' he' heq.symm).1⟩
      · rw [deepHash, deepHash, deepHashEntries_eq_map, deepHashEntries_eq_map]
        refine congrArg _ (map_eq_of_forall₂ ((forall₂_mem_of_map_eq h).imp ?_))
        rintro e e' ⟨he, he', heq⟩
        exact Prod.ext (Prod.ext_iff.1 heq).1 (hagree e he e' he' heq).2
    | scalar t => cases t <;> simp [Object.contents, Scalar.toValue] at h
    | _ => simp [Object.contents] at h
  | scalar s => exact deepEquals_of_plain (by cases s <;> rfl) h hproper hlaw
  | constant | object => exact deepEquals_of_plain rfl h hproper hlaw

end Contents

end Library

/-- Instances of one class, numbered. -/
def numberedLibrary : Library Nat where
  equals
    | k, .instance l => k == l
    | _, _ => false
  hash := id
  typeHash _ := 0
  scalarHash _ := 0
  constantHash _ := 0
  identityHash := id
  itemsHash hashes := hashes.length
  entriesHash hashes := hashes.length

end DartModels.Dart
