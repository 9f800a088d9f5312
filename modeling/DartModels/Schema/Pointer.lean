import DartModels.Schema.Document
import DartModels.Text.Segments

/-! # Pointers

A reference that starts with a number sign points into the document; what it names is looked up
among the definitions and never expanded. Every other reference is external and only suggests a
name.
-/

namespace DartModels.Schema

/-- What a reference designates. -/
structure Target where
  name : String
  isExternal : Bool
  deriving DecidableEq, Repr

/-- The text from the first occurrence of a character on, without it. -/
def afterFirst (mark : Char) : List Char → Option (List Char)
  | [] => none
  | c :: rest => if c = mark then some rest else afterFirst mark rest

def dropTrailing (c : Char) (s : List Char) : List Char :=
  (s.reverse.dropWhile (· == c)).reverse

def dropSuffix (ending s : List Char) : List Char :=
  if ending.isSuffixOf s then s.take (s.length - ending.length) else s

def lastSegment (s : List Char) : List Char :=
  (Text.segments (· == '/') s).getLastD []

/-- The name an external reference suggests: the end of its fragment or of its file name. -/
def externalName (pointer : List Char) : List Char :=
  let body := (afterFirst '#' pointer).getD pointer
  dropSuffix ".json".toList (lastSegment (dropTrailing '/' body))

/-- The tables that hold definitions. -/
def definitionTables : List (List Char) :=
  ["definitions".toList, "$defs".toList]

/-- Everything after a definition table is one name; any other pointer ends in its name. -/
def localName (pointer : List Char) : List Char :=
  match Text.segments (· == '/') pointer with
  | _ :: table :: name :: names =>
    if definitionTables.contains table then ['/'].intercalate (name :: names)
    else lastSegment pointer
  | _ => lastSegment pointer

def target (pointer : String) : Target :=
  match pointer.toList with
  | '#' :: rest => ⟨String.ofList (localName ('#' :: rest)), false⟩
  | s => ⟨String.ofList (externalName s), true⟩

/-- The definition a reference designates, if the document has it. -/
def Document.resolve? (d : Document) (pointer : String) : Option Definition :=
  let t := target pointer
  if t.isExternal then none else d.find? t.name

end DartModels.Schema
