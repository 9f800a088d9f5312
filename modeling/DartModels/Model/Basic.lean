import DartModels.Json.Value

/-! # Models

What is generated for a definition: a model with typed fields, the imports it needs, and the
enumerations that its properties declare inline.
-/

namespace DartModels.Model

inductive Primitive
  | integer
  | string
  | boolean
  | object
  deriving DecidableEq, Repr

namespace Primitive

/-- The schema name of a primitive type. -/
def name : Primitive → String
  | .integer => "integer"
  | .string => "string"
  | .boolean => "boolean"
  | .object => "object"

def ofName? : String → Option Primitive
  | "integer" => some .integer
  | "string" => some .string
  | "boolean" => some .boolean
  | "object" => some .object
  | _ => none

theorem ofName?_name (p : Primitive) : ofName? p.name = some p := by
  cases p <;> rfl

end Primitive

/-- A member of an enumeration and the literal it stands for. -/
structure Member where
  name : String
  literal : Json

structure Enumeration where
  name : String
  schemaName : String
  stem : String
  members : List Member

/-- The type of a field. Generated types carry the import path of their file. -/
inductive TypeRef
  | dynamic
  | primitive (type : Primitive)
  | model (name importPath : String)
  | enumeration (declaration : Enumeration) (importPath : String)
  | list (item : TypeRef)

namespace TypeRef

def importPath? : TypeRef → Option String
  | .model _ path => some path
  | .enumeration _ path => some path
  | _ => none

def enumeration? : TypeRef → Option Enumeration
  | .enumeration declaration _ => some declaration
  | _ => none

/-- The type at the bottom of all lists. -/
def leaf : TypeRef → TypeRef
  | .list item => item.leaf
  | t => t

/-- The type and the types nested in it, outermost first. -/
def walk : TypeRef → List TypeRef
  | .list item => .list item :: item.walk
  | t => [t]

end TypeRef

structure Field where
  name : String
  schemaName : String
  type : TypeRef
  isNullable : Bool

end DartModels.Model

namespace DartModels

structure Model where
  name : String
  schemaName : String
  stem : String
  fields : List Model.Field
  imports : List String
  enumerations : List Model.Enumeration

end DartModels
