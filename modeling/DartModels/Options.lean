import DartModels.Json.Printer
import DartModels.Text.Segments

/-! # Options

Options are read from a JSON object. Their values are not checked on reading: a list of names may
be any value that can hold a name, flags are judged by whether the value holds, and names are shown
as text. An entry called `__dict__` replaces the whole table, after which the two lists may be
absent.
-/

namespace DartModels

structure Options where
  ignoreClasses : Option Json := some (.arr [])
  ignoreFields : Option Json := some (.arr [])
  generationComment : Json := .bool true
  enumsFolder : Json := .str "enums"
  fileExtension : Json := .str "dart"
  deepEquality : Json := .bool true
  wireValues : Json := .bool false
  validate : Json := .bool true
  /-- Whether the options can still be listed; an entry called `to_dict` hides the list. -/
  isListable : Bool := true

namespace Options

inductive Fault
  | wrongType
  | absent
  deriving DecidableEq, Repr

/-- The table that an object sets up on its own. -/
def ofTable (members : List (String × Json)) : Options :=
  let base : Options := {}
  { ignoreClasses := members.lookup "ignore_classes"
    ignoreFields := members.lookup "global_ignore_fields"
    generationComment := (members.lookup "add_generation_comment").getD base.generationComment
    enumsFolder := (members.lookup "enums_dir_name").getD base.enumsFolder
    fileExtension := (members.lookup "file_extension").getD base.fileExtension
    deepEquality := (members.lookup "deep_collection_equality").getD base.deepEquality
    wireValues := (members.lookup "enum_wire_values").getD base.wireValues
    validate := (members.lookup "validate_before_write").getD base.validate
    isListable := (members.lookup "to_dict").isNone }

/-- Sets one option; names that mean nothing are passed over. -/
def set (o : Options) (name : String) (value : Json) : Except Fault Options :=
  match name with
  | "ignore_classes" => .ok { o with ignoreClasses := o.ignoreClasses.map fun _ => value }
  | "global_ignore_fields" => .ok { o with ignoreFields := o.ignoreFields.map fun _ => value }
  | "add_generation_comment" => .ok { o with generationComment := value }
  | "enums_dir_name" => .ok { o with enumsFolder := value }
  | "file_extension" => .ok { o with fileExtension := value }
  | "deep_collection_equality" => .ok { o with deepEquality := value }
  | "enum_wire_values" => .ok { o with wireValues := value }
  | "validate_before_write" => .ok { o with validate := value }
  | "to_dict" => .ok { o with isListable := false }
  | "__dict__" =>
    match value with
    | .obj members => .ok (ofTable members)
    | _ => .error .wrongType
  | "__class__" => .error .wrongType
  | "__weakref__" => .error .absent
  | _ => .ok o

def setAll (o : Options) : List (String × Json) → Except Fault Options
  | [] => .ok o
  | (name, value) :: rest =>
    match o.set name value with
    | .ok o => setAll o rest
    | .error e => .error e

def ofJson : Json → Except Fault Options
  | .obj members => setAll {} members
  | _ => .error .absent

def require : Option Json → Except Fault Json
  | some value => .ok value
  | none => .error .absent

/-- The table of all options. -/
def toJson (o : Options) : Except Fault Json :=
  if !o.isListable then .error .wrongType
  else do
    return .obj [
      ("ignore_classes", ← require o.ignoreClasses),
      ("global_ignore_fields", ← require o.ignoreFields),
      ("add_generation_comment", o.generationComment),
      ("enums_dir_name", o.enumsFolder),
      ("file_extension", o.fileExtension),
      ("deep_collection_equality", o.deepEquality),
      ("enum_wire_values", o.wireValues),
      ("validate_before_write", o.validate)]

/-- Whether a value holds a name: as an item, as a member or inside a text. -/
def holdsName (name : String) : Json → Except Fault Bool
  | .arr items => .ok ((items.filterMap Json.string?).contains name)
  | .obj members => .ok (members.lookup name).isSome
  | .str s => .ok (Text.occursIn name.toList s.toList)
  | _ => .error .wrongType

def ignoresClass (o : Options) (name : String) : Except Fault Bool :=
  require o.ignoreClasses >>= holdsName name

def ignoresField (o : Options) (name : String) : Except Fault Bool :=
  require o.ignoreFields >>= holdsName name

/-- The file name of a stem. -/
def fileName (o : Options) (stem : String) : String :=
  s!"{stem}.{o.fileExtension.display}"

end Options

end DartModels
