import DartModels.Dart.EnumFile
import DartModels.Model.Analysis
import DartModels.Path

/-! # Drafts

The files of a definition: one for each inline enumeration in property order, then the file of the
model that imports them. Drafting writes nothing.
-/

namespace DartModels.Generation

open Model Schema

structure GeneratedFile where
  path : Path
  content : String
  deriving DecidableEq, Repr

def programName : String := "json_schema_to_dart"

/-- The header of every file, which names the command that made it. -/
def generationComment (o : Options) (command : String) : String :=
  if o.generationComment.holds then s!"// Generated by {programName} v1.0.0 : {command}" else ""

def modelPath (o : Options) (stem : String) : Path :=
  (Path.ofString stem).join (Path.ofString (o.fileName stem))

/-- The path of an enumeration file; only a text names a folder. -/
def enumerationPath (o : Options) (stem : String) : Except Options.Fault Path :=
  match o.enumsFolder with
  | .str folder => .ok ((Path.ofString folder).join (Path.ofString (o.fileName stem)))
  | _ => .error .wrongType

def enumerationFiles (o : Options) (comment : String) :
    List Enumeration → Except Options.Fault (List GeneratedFile)
  | [] => .ok []
  | e :: rest =>
    match enumerationPath o e.stem with
    | .error fault => .error fault
    | .ok path =>
      (enumerationFiles o comment rest).map fun files => ⟨path, Dart.enumFile o comment e⟩ :: files

def filesOf (o : Options) (comment : String) (m : Model) :
    Except Options.Fault (List GeneratedFile) :=
  (enumerationFiles o comment m.enumerations).map fun files =>
    files ++ [⟨modelPath o m.stem, Dart.modelFile o comment m⟩]

/-- What became of a definition or of several: the files, or the fault that stopped the work, and
everything noted on the way. -/
structure Draft where
  files : List GeneratedFile
  records : List Record
  unresolved : List Unresolved
  fault? : Option Options.Fault

def Draft.empty : Draft := ⟨[], [], [], none⟩

def Draft.failed (fault : Options.Fault) : Draft := ⟨[], [], [], some fault⟩

/-- One draft and then another, unless the first was stopped. -/
def Draft.andThen (a b : Draft) : Draft :=
  match a.fault? with
  | some _ => a
  | none => ⟨a.files ++ b.files, a.records ++ b.records, a.unresolved ++ b.unresolved, b.fault?⟩

def draftDefinition (d : Document) (o : Options) (command : String) (definition : Definition) :
    Draft :=
  match analyze d o definition with
  | .error fault => .failed fault
  | .ok analysis =>
    match filesOf o (generationComment o command) analysis.model with
    | .ok files => ⟨files, analysis.records, analysis.unresolved, none⟩
    | .error fault => ⟨[], analysis.records, analysis.unresolved, some fault⟩

/-- The definitions that are not ignored. -/
def keptDefinitions (o : Options) : List Definition → Except Options.Fault (List Definition)
  | [] => .ok []
  | definition :: rest =>
    match o.ignoresClass definition.name with
    | .error fault => .error fault
    | .ok ignored =>
      (keptDefinitions o rest).map fun kept => if ignored then kept else definition :: kept

/-- The files of a whole document. -/
def build (d : Document) (o : Options) (command : String) : Draft :=
  match keptDefinitions o d.definitions with
  | .error fault => .failed fault
  | .ok kept => kept.foldr (fun definition draft =>
      (draftDefinition d o command definition).andThen draft) .empty

end DartModels.Generation
