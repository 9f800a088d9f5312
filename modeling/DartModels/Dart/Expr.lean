import DartModels.Dart.Literal
import DartModels.Model.Basic

/-! # Conversion expressions

The expressions by which a generated model takes a field out of a map and puts it back. Both follow
the type of the field: lists are converted item by item unless their items need no conversion.
-/

namespace DartModels.Dart

open Model

def primitiveText : Primitive → String
  | .integer => "int"
  | .string => "String"
  | .boolean => "bool"
  | .object => "Map<String, dynamic>"

def dynamicText : String := "dynamic"

def typeText : TypeRef → String
  | .dynamic => dynamicText
  | .primitive p => primitiveText p
  | .model name _ => name
  | .enumeration declaration _ => declaration.name
  | .list item => s!"List<{typeText item}>"

/-- The type of a field; the dynamic type admits null without a mark. -/
def fieldTypeText (f : Field) : String :=
  let type := typeText f.type
  if f.isNullable && type != dynamicText then type ++ "?" else type

inductive Expr
  /-- A variable in scope. -/
  | named (name : String)
  /-- The value under a key of the map that is decoded. -/
  | entry (key : String)
  /-- A value known not to be null. -/
  | nonNull (e : Expr)
  /-- Null if the first value is, and otherwise the second. -/
  | unlessNull (test value : Expr)
  /-- A copy of a list whose items have the given type. -/
  | listFrom (item : String) (e : Expr)
  /-- An instance of a generated type. -/
  | decoded (type : String) (e : Expr)
  /-- The map form of an instance. -/
  | encoded (e : Expr)
  /-- A value taken as a list, or as a list or null. -/
  | asList (nullable : Bool) (e : Expr)
  /-- The list of the images of all items, or null for null. -/
  | mapItems (nullable : Bool) (e body : Expr)
  deriving DecidableEq, Repr

namespace Expr

def mark (nullable : Bool) : String :=
  if nullable then "?" else ""

/-- The variable that stands for an item while a list is converted. -/
def itemName : String := "item"

def text : Expr → String
  | .named name => name
  | .entry key => s!"json[{quote key}]"
  | .nonNull e => s!"{e.text}!"
  | .unlessNull test value => s!"{test.text} == null ? null : {value.text}"
  | .listFrom item e => s!"List<{item}>.from({e.text})"
  | .decoded type e => s!"{type}.fromMap({e.text})"
  | .encoded e => s!"{e.text}.toMap()"
  | .asList nullable e => s!"({e.text} as List{mark nullable})"
  | .mapItems nullable e body =>
    s!"{e.text}{mark nullable}.map(({itemName}) => {body.text}).toList()"

end Expr

/-- Whether values of a type stand for themselves in a map. -/
def isRaw : TypeRef → Bool
  | .dynamic | .primitive _ => true
  | _ => false

def guarded (nullable : Bool) (source e : Expr) : Expr :=
  if nullable then .unlessNull source e else e

/-- The expression that decodes a value. -/
def decode (source : Expr) (nullable : Bool) : TypeRef → Expr
  | .dynamic | .primitive _ => source
  | .model name _ => guarded nullable source (.decoded name source)
  | .enumeration declaration _ => guarded nullable source (.decoded declaration.name source)
  | .list item =>
    if isRaw item then guarded nullable source (.listFrom (typeText item) source)
    else .mapItems nullable (.asList nullable source) (decode (.named Expr.itemName) false item)

/-- The expression that encodes a value that is not null. -/
def encode (value : Expr) : TypeRef → Expr
  | .dynamic | .primitive _ => value
  | .model .. | .enumeration .. => .encoded value
  | .list item =>
    if isRaw item then value
    else .mapItems false value (encode (.named Expr.itemName) item)

def decodeField (f : Field) : Expr :=
  decode (.entry f.schemaName) f.isNullable f.type

/-- A field that is stored as it is needs no null check. -/
def encodeField (f : Field) : Expr :=
  match encode (.nonNull (.named f.name)) f.type with
  | .nonNull e => e
  | e => e

end DartModels.Dart
