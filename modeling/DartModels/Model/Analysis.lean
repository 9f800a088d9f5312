import DartModels.Journal
import DartModels.Model.Resolve

/-! # Analysis

A definition becomes a model. Properties that the options ignore are left out. Names that collide,
among the members of an enumeration or among the fields of the model, are reported and kept.
-/

namespace DartModels.Model

open Naming Schema

/-- Inserts into a strictly ascending list, which stays strictly ascending. -/
def insertName (name : String) : List String → List String
  | [] => [name]
  | n :: rest =>
    if name < n then name :: n :: rest
    else if name = n then n :: rest
    else n :: insertName name rest

/-- The distinct names of a list in ascending order. -/
def sortNames (names : List String) : List String :=
  names.foldr insertName []

/-- The names that occur at least twice, each once, in ascending order. -/
def duplicates (names : List String) : List String :=
  sortNames (names.filter fun n => 2 ≤ names.count n)

def Enumeration.memberNames (e : Enumeration) : List String :=
  e.members.map (·.name)

def commaSeparated (names : List String) : String :=
  ", ".intercalate names

/-- The report on an enumeration with colliding members, the sentinel among them. -/
def Enumeration.report (e : Enumeration) : List Record :=
  match duplicates (sentinel :: e.memberNames) with
  | [] => []
  | names =>
    [⟨.warning, .analysis, s!"Enum {e.name} has duplicate members: {commaSeparated names}"⟩]

/-- The report on a model with colliding fields. -/
def fieldReport (model : String) (fields : List Field) : List Record :=
  match duplicates (fields.map (·.name)) with
  | [] => []
  | names =>
    [⟨.warning, .analysis,
      s!"Class {model} has properties mapping to the same field: {commaSeparated names}"⟩]

def Field.ofProperty (d : Document) (o : Options) (p : Property) : Field where
  name := fieldName p.name
  schemaName := p.name
  type := resolve d o p.name p.node
  isNullable := true

def Field.enumerations (f : Field) : List Enumeration :=
  f.type.walk.filterMap TypeRef.enumeration?

def Field.imports (f : Field) : List String :=
  f.type.walk.filterMap TypeRef.importPath?

/-- A model with what was noted while it was made. -/
structure Analysis where
  model : Model
  records : List Record
  unresolved : List Unresolved

/-- The properties of a definition that are kept. -/
def keptProperties (o : Options) : List Property → Except Options.Fault (List Property)
  | [] => .ok []
  | p :: rest =>
    match o.ignoresField p.name with
    | .error e => .error e
    | .ok ignored =>
      (keptProperties o rest).map fun kept => if ignored then kept else p :: kept

def Analysis.ofProperties (d : Document) (o : Options) (name : String) (kept : List Property) :
    Analysis :=
  let fields := kept.map (Field.ofProperty d o)
  let enumerations := fields.flatMap Field.enumerations
  let imports := (fields.flatMap Field.imports).filter (· != modelImport o name)
  { model :=
      { name := typeName name
        schemaName := name
        stem := fileStem name
        fields := fields
        imports := sortNames imports
        enumerations := enumerations }
    records := enumerations.flatMap Enumeration.report ++ fieldReport (typeName name) fields
    unresolved := kept.flatMap fun p => Model.unresolved d p.node }

def analyze (d : Document) (o : Options) (definition : Definition) :
    Except Options.Fault Analysis :=
  (keptProperties o definition.properties).map fun kept =>
    Analysis.ofProperties d o definition.name kept

end DartModels.Model
