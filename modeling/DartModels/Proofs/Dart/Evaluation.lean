import DartModels.Dart.Expr
import DartModels.Proofs.Dart.Literals

/-! # Evaluating conversions

The values that conversion expressions work on, and what an expression yields. Instances of the
generated types are opaque; a runtime knows their types and converts them.
-/

namespace DartModels.Dart

open Model

universe u

/-- A value of the generated program; `ι` is the type of its class and enumeration instances. -/
inductive Value (ι : Type u)
  | null
  | bool (value : Bool)
  | int (value : Int)
  | float (value : Binary64)
  | str (value : String)
  | list (items : List (Value ι))
  | map (entries : List (String × Value ι))
  | instance (object : ι)

instance {ι : Type u} : Inhabited (Value ι) := ⟨.null⟩

/-- The generated types: the type of an instance, its map form, and decoding by type. -/
structure Runtime (ι : Type u) where
  typeName : ι → String
  toMap : ι → Option (Value ι)
  fromMap : String → Value ι → Option ι

variable {ι : Type u}

namespace Value

/-- The value under a key of a map; a missing key has the value null. -/
def entry? (key : String) : Value ι → Option (Value ι)
  | .map entries => some ((entries.lookup key).getD .null)
  | _ => none

/-- Whether a value belongs to the library type with the given text. -/
def isA (type : String) : Value ι → Bool
  | .int _ => type = primitiveText .integer || type = dynamicText
  | .str _ => type = primitiveText .string || type = dynamicText
  | .bool _ => type = primitiveText .boolean || type = dynamicText
  | .map _ => type = primitiveText .object || type = dynamicText
  | _ => type = dynamicText

def nonNull? : Value ι → Option (Value ι)
  | .null => none
  | v => some v

/-- Null for null, and otherwise what is given. -/
def unlessNull (other : Option (Value ι)) : Value ι → Option (Value ι)
  | .null => some .null
  | _ => other

/-- A list whose items all have a type. -/
def listOf? (type : String) : Value ι → Option (Value ι)
  | .list items => if items.all (·.isA type) then some (.list items) else none
  | _ => none

def asList? (nullable : Bool) : Value ι → Option (Value ι)
  | .list items => some (.list items)
  | .null => if nullable then some .null else none
  | _ => none

def mapItems? (nullable : Bool) (f : Value ι → Option (Value ι)) : Value ι → Option (Value ι)
  | .list items => (items.mapM f).map .list
  | .null => if nullable then some .null else none
  | _ => none

def decoded? (R : Runtime ι) (type : String) (v : Value ι) : Option (Value ι) :=
  (R.fromMap type v).map .instance

def encoded? (R : Runtime ι) : Value ι → Option (Value ι)
  | .instance i => R.toMap i
  | _ => none

/-- An instance that is part of a value. -/
inductive Occurs (i : ι) : Value ι → Prop
  | here : Occurs i (.instance i)
  | item {v : Value ι} {items : List (Value ι)} : v ∈ items → Occurs i v → Occurs i (.list items)
  | entry {e : String × Value ι} {entries : List (String × Value ι)} :
      e ∈ entries → Occurs i e.2 → Occurs i (.map entries)

/-- Nothing but JSON data: no instance is part of the value. -/
def IsJson (v : Value ι) : Prop :=
  ∀ i, ¬ Occurs i v

theorem isJson_list_iff {items : List (Value ι)} :
    (list items).IsJson ↔ ∀ v ∈ items, v.IsJson := by
  constructor
  · intro h v hv i hi
    exact h i (.item hv hi)
  · rintro h i (_ | ⟨hv, hi⟩)
    exact h _ hv i hi

theorem isJson_map_iff {entries : List (String × Value ι)} :
    (map entries).IsJson ↔ ∀ e ∈ entries, e.2.IsJson := by
  constructor
  · intro h e he i hi
    exact h i (.entry he hi)
  · rintro h i (_ | _ | ⟨he, hi⟩)
    exact h _ he i hi

theorem nonNull?_of_ne {v : Value ι} (h : v ≠ .null) : v.nonNull? = some v := by
  cases v <;> first | exact absurd rfl h | rfl

theorem eq_of_nonNull? {v w : Value ι} (h : v.nonNull? = some w) : v = w := by
  have hv : v ≠ .null := by
    rintro rfl
    cases h
  exact Option.some.inj ((nonNull?_of_ne hv).symm.trans h)

theorem unlessNull_of_ne {v : Value ι} (h : v ≠ .null) (other : Option (Value ι)) :
    unlessNull other v = other := by
  cases v <;> first | exact absurd rfl h | rfl

@[simp]
theorem unlessNull_null (other : Option (Value ι)) : unlessNull other .null = some .null := rfl

@[simp]
theorem asList?_list (nullable : Bool) (items : List (Value ι)) :
    asList? nullable (.list items) = some (.list items) := rfl

@[simp]
theorem mapItems?_list (nullable : Bool) (f : Value ι → Option (Value ι))
    (items : List (Value ι)) : mapItems? nullable f (.list items) = (items.mapM f).map .list := rfl

theorem isA_dynamic (v : Value ι) : v.isA dynamicText = true := by
  cases v <;> simp [isA]

end Value

namespace Expr

/-- The scope in which an item of a list is converted; an outer item is hidden. -/
def withItem (v : Value ι) (scope : String → Option (Value ι)) : String → Option (Value ι) :=
  fun name => if name = itemName then some v else scope name

/-- The parameter that holds the map while a model is decoded. -/
def mapName : String := "json"

/-- What an expression yields, if nothing fails on the way. -/
def eval (R : Runtime ι) (scope : String → Option (Value ι)) : Expr → Option (Value ι)
  | .named name => scope name
  | .entry key =>
    (scope mapName).bind fun v => (literalValue? (quote key)).bind fun name => v.entry? name
  | .nonNull e => (eval R scope e).bind Value.nonNull?
  | .unlessNull test value => (eval R scope test).bind (Value.unlessNull (eval R scope value))
  | .listFrom item e => (eval R scope e).bind (Value.listOf? item)
  | .decoded type e => (eval R scope e).bind (Value.decoded? R type)
  | .encoded e => (eval R scope e).bind (Value.encoded? R)
  | .asList nullable e => (eval R scope e).bind (Value.asList? nullable)
  | .mapItems nullable e body =>
    (eval R scope e).bind (Value.mapItems? nullable fun v => eval R (withItem v scope) body)

section Equations

variable (R : Runtime ι) (scope : String → Option (Value ι)) (e : Expr)

theorem eval_named (name : String) : eval R scope (.named name) = scope name := rfl

theorem eval_entry (key : String) : eval R scope (.entry key) =
    (scope mapName).bind fun v => (literalValue? (quote key)).bind fun name => v.entry? name := rfl

theorem eval_nonNull : eval R scope (.nonNull e) = (eval R scope e).bind Value.nonNull? := rfl

theorem eval_unlessNull (value : Expr) : eval R scope (.unlessNull e value) =
    (eval R scope e).bind (Value.unlessNull (eval R scope value)) := rfl

theorem eval_listFrom (item : String) :
    eval R scope (.listFrom item e) = (eval R scope e).bind (Value.listOf? item) := rfl

theorem eval_decoded (type : String) :
    eval R scope (.decoded type e) = (eval R scope e).bind (Value.decoded? R type) := rfl

theorem eval_encoded : eval R scope (.encoded e) = (eval R scope e).bind (Value.encoded? R) := rfl

theorem eval_asList (nullable : Bool) :
    eval R scope (.asList nullable e) = (eval R scope e).bind (Value.asList? nullable) := rfl

theorem eval_mapItems (nullable : Bool) (body : Expr) : eval R scope (.mapItems nullable e body) =
    (eval R scope e).bind
      (Value.mapItems? nullable fun v => eval R (withItem v scope) body) := rfl

end Equations

end Expr

/-- The encoded value of a field of an instance, which is left out if the field is null. -/
def encodedEntry (R : Runtime ι) (fields : List (String × Value ι)) (f : Field) :
    Option (Option (Value ι)) :=
  match fields.lookup f.name with
  | none => none
  | some .null => some none
  | some _ => (Expr.eval R (fields.lookup ·) (encodeField f)).map some

def encodeStep (R : Runtime ι) (fields : List (String × Value ι))
    (entries : List (String × Value ι)) (f : Field) : Option (List (String × Value ι)) :=
  match encodedEntry R fields f with
  | none => none
  | some none => some entries
  | some (some v) =>
    (literalValue? (quote f.schemaName)).map fun key => Json.setMember key v entries

/-- The map form of an instance of a model, which is given by the values of its fields. -/
def encodeModel (R : Runtime ι) (m : List Field) (fields : List (String × Value ι)) :
    Option (Value ι) :=
  (m.foldlM (encodeStep R fields) []).map .map

def decodedEntry (R : Runtime ι) (v : Value ι) (f : Field) : Option (String × Value ι) :=
  (Expr.eval R (fun name => if name = Expr.mapName then some v else none) (decodeField f)).map
    fun x => (f.name, x)

/-- The values of the fields of the instance of a model that is decoded from a map. -/
def decodeModel (R : Runtime ι) (m : List Field) (v : Value ι) :
    Option (List (String × Value ι)) :=
  m.mapM (decodedEntry R v)

end DartModels.Dart
