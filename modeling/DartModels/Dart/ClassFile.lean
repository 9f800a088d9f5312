import DartModels.Dart.Expr
import DartModels.Options

/-! # Model files

The text of a generated file: a header comment, the imports and the declaration. A model declares
its fields, the conversions from and to maps and text, and value equality.
-/

namespace DartModels.Dart

open Model

def unlines (lines : List String) : String :=
  String.join (lines.map (· ++ "\n"))

theorem unlines_append (a b : List String) : unlines (a ++ b) = unlines a ++ unlines b := by
  simp [unlines, String.join_append]

theorem unlines_cons (line : String) (rest : List String) :
    unlines (line :: rest) = line ++ "\n" ++ unlines rest := by
  simp [unlines, String.join_cons]

/-- A file without header has no blank line in front. -/
def fileText (header body : List String) : String :=
  match header with
  | [] => unlines body
  | header => unlines header ++ "\n" ++ unlines body

def commentLines (comment : String) : List String :=
  if comment = "" then [] else [comment]

/-- Whether values of a type are compared by content. -/
def isCollection : TypeRef → Bool
  | .list _ | .primitive .object => true
  | _ => false

def isDeep (o : Options) (f : Field) : Bool :=
  o.deepEquality.holds && isCollection f.type

def equalityText (o : Options) (f : Field) : String :=
  if isDeep o f then s!"const DeepCollectionEquality().equals(other.{f.name}, {f.name})"
  else s!"other.{f.name} == {f.name}"

def hashText (o : Options) (f : Field) : String :=
  if isDeep o f then s!"const DeepCollectionEquality().hash({f.name})"
  else s!"{f.name}.hashCode"

/-- Lines joined by an operator, the last one closing the statement. -/
def statement (operator : String) : List String → List String
  | [] => []
  | [line] => [line ++ ";"]
  | line :: rest => (line ++ operator) :: statement operator rest

/-- Lines with a comma after each but the last. -/
def commaBetween : List String → List String
  | [] => []
  | [line] => [line]
  | line :: rest => (line ++ ",") :: commaBetween rest

def constructorLines (name : String) : List Field → List String
  | [] => [s!"  {name}();"]
  | fields =>
    [s!"  {name}(\x7b"] ++ fields.map (fun f => s!"    this.{f.name},") ++ ["  \x7d);"]

def decoderLines (name : String) (fields : List Field) : List String :=
  let body := match fields with
    | [] => [s!"    return {name}();"]
    | fields =>
      [s!"    return {name}("] ++
        fields.map (fun f => s!"      {f.name}: {(decodeField f).text},") ++ ["    );"]
  [s!"  factory {name}.fromMap(Map<String, dynamic> json) \x7b"] ++ body ++ ["  \x7d"]

def encoderLines (fields : List Field) : List String :=
  ["  Map<String, dynamic> toMap() \x7b", "    return <String, dynamic>\x7b"] ++
    fields.map (fun f =>
      s!"      if ({f.name} != null) {quote f.schemaName}: {(encodeField f).text},") ++
    ["    \x7d;", "  \x7d"]

def jsonLines (name : String) : List String :=
  ["  String toJson() => jsonEncode(toMap());",
   "",
   s!"  factory {name}.fromJson(String source) =>",
   s!"      {name}.fromMap(jsonDecode(source) as Map<String, dynamic>);"]

def descriptionLines (name : String) (fields : List Field) : List String :=
  ["  @override", "  String toString() \x7b", s!"    return \"\"\"{name}("] ++
    commaBetween (fields.map fun f => s!"  {f.name}: ${f.name}") ++
    [")\"\"\";", "  \x7d"]

def equalityLines (o : Options) (name : String) (fields : List Field) : List String :=
  ["  @override", "  bool operator ==(Object other) \x7b",
   "    if (identical(this, other)) return true;"] ++
    statement " &&"
      (s!"    return other is {name}" :: fields.map fun f => "        " ++ equalityText o f) ++
    ["  \x7d"]

def hashLines (o : Options) (fields : List Field) : List String :=
  let result := match fields.map (hashText o) with
    | [] => ["    return runtimeType.hashCode;"]
    | hash :: rest => statement " ^" (("    return " ++ hash) :: rest.map ("        " ++ ·))
  ["  @override", "  int get hashCode \x7b"] ++ result ++ ["  \x7d"]

def classLines (o : Options) (name : String) (fields : List Field) : List String :=
  [s!"class {name} \x7b"] ++
    fields.map (fun f => s!"  final {fieldTypeText f} {f.name};") ++
    (if fields.isEmpty then [] else [""]) ++
    constructorLines name fields ++ [""] ++
    decoderLines name fields ++ [""] ++
    encoderLines fields ++ [""] ++
    jsonLines name ++ [""] ++
    descriptionLines name fields ++ [""] ++
    equalityLines o name fields ++ [""] ++
    hashLines o fields ++ ["\x7d"]

def convertImport : String := "dart:convert"

def collectionImport : String := "package:collection/collection.dart"

def importLine (path : String) : String :=
  s!"import '{path}';"

def usesCollection (o : Options) (fields : List Field) : Bool :=
  fields.any (isDeep o)

/-- Everything a model file imports, in order. -/
def allImports (o : Options) (m : Model) : List String :=
  [convertImport] ++ (if usesCollection o m.fields then [collectionImport] else []) ++ m.imports

def importLines (o : Options) (m : Model) : List String :=
  [importLine convertImport] ++
    (if usesCollection o m.fields then ["", importLine collectionImport] else []) ++
    (if m.imports.isEmpty then [] else "" :: m.imports.map importLine)

def modelFile (o : Options) (comment : String) (m : Model) : String :=
  fileText (commentLines comment ++ importLines o m) (classLines o m.name m.fields)

end DartModels.Dart
