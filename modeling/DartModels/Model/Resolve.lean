import DartModels.Model.Basic
import DartModels.Naming.Identifier
import DartModels.Options
import DartModels.Schema.Pointer

/-! # Resolving property types

A property schema becomes a field type. A reference that leads nowhere becomes the dynamic type and
is noted.
-/

namespace DartModels.Model

open Naming Schema

/-- A reference without a definition, and the place where it stands. -/
structure Unresolved where
  pointer : String
  path : String
  deriving DecidableEq, Repr

def Unresolved.message (u : Unresolved) : String :=
  s!"Unresolved $ref {Text.quoted u.pointer} at {u.path}: field degrades to dynamic"

/-- The import path of the model file of a definition. -/
def modelImport (o : Options) (name : String) : String :=
  s!"../{fileStem name}/{o.fileName (fileStem name)}"

/-- The import path of the file of an inline enumeration. -/
def enumerationImport (o : Options) (property : String) : String :=
  s!"../{o.enumsFolder.display}/{o.fileName (fileStem property)}"

def Enumeration.ofValues (property : String) (values : List Json) : Enumeration where
  name := typeName property
  schemaName := property
  stem := fileStem property
  members := values.map fun v => ⟨memberName v.literalText, v⟩

def resolveReference (d : Document) (o : Options) (pointer : String) : Option TypeRef :=
  (d.resolve? pointer).map fun definition =>
    .model (typeName definition.name) (modelImport o definition.name)

/-- The type of a property schema. -/
def resolve (d : Document) (o : Options) (property : String) : Node → TypeRef
  | .primitive type _ =>
    match type.bind Primitive.ofName? with
    | some p => .primitive p
    | none => .dynamic
  | .enumeration values isList _ =>
    let type := .enumeration (.ofValues property values) (enumerationImport o property)
    if isList then .list type else type
  | .reference pointer _ => (resolveReference d o pointer).getD .dynamic
  | .list none _ => .list .dynamic
  | .list (some items) _ => .list (resolve d o property items)

/-- The reference at the bottom of a property schema, if it leads nowhere. -/
def unresolved (d : Document) : Node → List Unresolved
  | .reference pointer path =>
    if (d.resolve? pointer).isSome then [] else [⟨pointer, path⟩]
  | .list (some items) _ => unresolved d items
  | _ => []

end DartModels.Model
