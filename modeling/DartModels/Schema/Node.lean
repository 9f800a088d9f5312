import DartModels.Json.Value

/-! # Property schemas

A property schema is an enumeration of literals, a reference, a list or a primitive. Enumerations
go before references, and references before the declared type. A node knows its place in the
document.
-/

namespace DartModels.Schema

inductive Node
  | primitive (type : Option String) (path : String)
  | enumeration (values : List Json) (isList : Bool) (path : String)
  | reference (pointer : String) (path : String)
  | list (items : Option Node) (path : String)

namespace Node

def path : Node → String
  | .primitive _ path => path
  | .enumeration _ _ path => path
  | .reference _ path => path
  | .list _ path => path

/-- The names under `type`, without `null`. -/
def declaredTypes (members : List (String × Json)) : List String :=
  let named := match members.lookup "type" with
    | some (.str s) => [s]
    | some (.arr items) => items.filterMap Json.string?
    | _ => []
  named.filter (· != "null")

/-- A single declared type. -/
def soleType (members : List (String × Json)) : Option String :=
  match declaredTypes members with
  | [type] => some type
  | _ => none

def itemsPath (path : String) : String :=
  path ++ "/items"

mutual

/-- The node of a schema at a path. -/
def ofJson (path : String) : Json → Node
  | .obj members =>
    match members.lookup "enum", members.lookup "$ref" with
    | some (.arr values), _ =>
      .enumeration values ((declaredTypes members).contains "array") path
    | _, some (.str pointer) => .reference pointer path
    | _, _ =>
      if (declaredTypes members).contains "array" then
        .list (itemsOf (itemsPath path) members) path
      else .primitive (soleType members) path
  | _ => .primitive none path

/-- The node under `items`; a list of schemas has no single one. -/
def itemsOf (path : String) : List (String × Json) → Option Node
  | [] => none
  | (name, value) :: rest =>
    if name = "items" then
      match value with
      | .obj members => some (ofJson path (.obj members))
      | .arr _ => some (.primitive none path)
      | _ => none
    else itemsOf path rest

end

end Node

end DartModels.Schema
