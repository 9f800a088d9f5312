import DartModels.Journal
import DartModels.Json.Reader
import DartModels.Schema.Node
import DartModels.Text.Blank
import DartModels.Text.Quoted
import DartModels.Text.Utf8

/-! # Schema documents

A document is a table of definitions, each with its properties in order. Reading one either gives
the document, with a record for every entry left out, or says what is wrong with the input.
-/

namespace DartModels.Schema

structure Property where
  name : String
  node : Node

structure Definition where
  name : String
  properties : List Property

structure Document where
  definitions : List Definition

def definitionPath (name : String) : String :=
  s!"#/definitions/{name}"

def propertyPath (definition property : String) : String :=
  s!"{definitionPath definition}/properties/{property}"

def Definition.path (d : Definition) : String :=
  definitionPath d.name

def Property.path (p : Property) : String :=
  p.node.path

def Document.find? (d : Document) (name : String) : Option Definition :=
  d.definitions.find? fun definition => definition.name == name

inductive Fault
  | notUtf8 (fault : Text.Utf8.Fault)
  | empty
  | malformed (cause : Json.Cause) (place : Json.Place)
  | tooManyDigits
  | definitionsNotObject
  | noDefinitions
  deriving DecidableEq, Repr

def Fault.message : Fault → String
  | .notUtf8 fault => s!"Error parsing JSON: {fault.message}"
  | .empty => "Schema input is empty"
  | .malformed cause place => s!"Error parsing JSON: {Json.faultMessage cause place}"
  | .tooManyDigits => "Integer has too many digits"
  | .definitionsNotObject => "'definitions' must be a JSON object"
  | .noDefinitions => "No definitions found in JSON schema."

/-- A document and the records of what was left out of it. -/
structure Reading where
  document : Document
  records : List Record

def Definition.ofMembers (name : String) (members : List (String × Json)) : Definition :=
  match members.lookup "properties" with
  | some (.obj properties) =>
    ⟨name, properties.map fun p => ⟨p.1, Node.ofJson (propertyPath name p.1) p.2⟩⟩
  | _ => ⟨name, []⟩

def commentMark : String := "_comment"

def isComment (name : String) : Bool :=
  commentMark.toList.isPrefixOf name.toList

/-- The definition of an entry, or the record of its being left out. -/
def readEntry (name : String) (value : Json) : Except Record Definition :=
  if isComment name then
    .error ⟨.debug, .reader, s!"Skipping comment entry {Text.quoted name}"⟩
  else match value with
    | .obj members => .ok (Definition.ofMembers name members)
    | _ =>
      .error ⟨.warning, .reader,
        s!"Skipping definition entry {Text.quoted name}: not an object schema"⟩

def Reading.ofEntries : List (String × Json) → Reading
  | [] => ⟨⟨[]⟩, []⟩
  | (name, value) :: rest =>
    let reading := Reading.ofEntries rest
    match readEntry name value with
    | .ok definition => { reading with document := ⟨definition :: reading.document.definitions⟩ }
    | .error record => { reading with records := record :: reading.records }

def Reading.ofJson (schema : Json) : Except Fault Reading :=
  match schema.member? "definitions" with
  | none | some .null => .error .noDefinitions
  | some (.obj entries) => .ok (Reading.ofEntries entries)
  | some _ => .error .definitionsNotObject

theorem Reading.ofJson_cases (schema : Json) :
    (∃ entries, schema.member? "definitions" = some (.obj entries) ∧
        Reading.ofJson schema = .ok (.ofEntries entries)) ∨
      Reading.ofJson schema = .error .noDefinitions ∨
      Reading.ofJson schema = .error .definitionsNotObject := by
  fun_cases Reading.ofJson schema with
  | case1 => exact .inr (.inl rfl)
  | case2 => exact .inr (.inl rfl)
  | case3 entries hentries => exact .inl ⟨entries, hentries, rfl⟩
  | case4 => exact .inr (.inr rfl)

/-- Reads the text of a document. -/
def readText (s : List Char) : Except Fault Reading :=
  if s.all Text.isBlank then .error .empty
  else match Json.read s with
    | .ok schema => Reading.ofJson schema
    | .error (.malformed cause left) => .error (.malformed cause (.ofLeft s left))
    | .error .tooManyDigits => .error .tooManyDigits

/-- Reads the bytes of a document, which may start with a byte order mark. -/
def readBytes (bytes : List UInt8) : Except Fault Reading :=
  match Text.Utf8.decode (Text.Utf8.dropMark bytes) with
  | .ok s => readText s
  | .error fault => .error (.notUtf8 fault)

/-- What a run is given to read. -/
inductive Input
  | text (s : String)
  | bytes (bs : List UInt8)

def Input.read : Input → Except Fault Reading
  | .text s => readText s.toList
  | .bytes bs => readBytes bs

end DartModels.Schema
