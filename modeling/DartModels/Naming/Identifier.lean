import DartModels.Naming.Words

/-! # Identifiers

Turning any name into an identifier of the generated language that is neither a keyword nor a name
the generated code already uses.
-/

namespace DartModels.Naming

def keywords : List String :=
  ["assert", "break", "case", "catch", "class", "const", "continue", "default", "do", "else", "enum",
   "extends", "false", "final", "finally", "for", "if", "in", "is", "new", "null", "rethrow",
   "return", "super", "switch", "this", "throw", "true", "try", "var", "void", "while", "with"]

/-- Names that every generated model uses for members, parameters and functions. -/
def modelMemberNames : List String :=
  ["hashCode", "runtimeType", "toString", "noSuchMethod", "toMap", "toJson", "fromMap", "fromJson",
   "other", "identical", "jsonEncode", "jsonDecode"]

/-- Members that every enumeration has. -/
def enumMemberNames : List String :=
  ["values", "index", "name", "hashCode", "runtimeType", "toString", "noSuchMethod", "toMap",
   "fromMap"]

/-- The member that stands for values outside an enumeration. -/
def sentinel : String := "unknown"

def isIdentifierChar (c : Char) : Bool :=
  c.isAlphanum || c = '_'

/-- The characters of a name that an identifier may hold, after `fallback` if they could not
start one. -/
def bareIdentifier (fallback name : List Char) : List Char :=
  match name.filter isIdentifierChar with
  | [] => fallback
  | c :: rest => if c.isDigit then fallback ++ c :: rest else c :: rest

/-- Reserved words get an underscore at the end. -/
def identifier (fallback : String) (reserved : List String) (name : String) : String :=
  let text := String.ofList (bareIdentifier fallback.toList name.toList)
  if keywords.contains text || reserved.contains text then text.push '_' else text

def fileStem (name : String) : String :=
  String.ofList (stem name.toList)

def typeName (name : String) : String :=
  identifier "Type" [] (String.ofList (typeCase name.toList))

def fieldName (name : String) : String :=
  identifier "field" modelMemberNames (String.ofList (fieldCase name.toList))

def memberName (name : String) : String :=
  identifier "value" (sentinel :: enumMemberNames) (String.ofList (memberCase name.toList))

end DartModels.Naming
