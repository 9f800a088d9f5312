import DartModels.Generation.Draft

/-! # The command in headers

Generated files name the command that made them. Paths are cut to their last segment, so that the
text does not depend on where the command was run; parameters at their defaults are left out.
-/

namespace DartModels.CommandLine

/-- The value of a parameter: a plain value, or a stream that may have a name. -/
inductive Parameter
  | plain (value : Json)
  | stream (name : Option String)

/-- The parameters of a command; those that are absent have no value at all. -/
structure Parameters where
  config : Option Parameter
  modelsDir : Option Parameter
  noComment : Option Parameter
  verbose : Option Parameter
  schema : Option Parameter
  output : Option Parameter

namespace Parameter

def holds : Parameter → Bool
  | .plain v => v.holds
  | .stream _ => true

/-- The last segment of a path, or the whole text if there is none. -/
def lastSegment (s : String) : String :=
  let name := (Path.ofString s).name
  if name = "" then s else name

def text : Parameter → String
  | .stream name => lastSegment (name.getD "-")
  | .plain (.str s) => lastSegment s
  | .plain v => v.display

def isText (s : String) : Parameter → Bool
  | .plain (.str t) => t == s
  | _ => false

end Parameter

def defaultModelsDir : String := "models"

/-- The words of an argument. -/
def argumentWords (p : Option Parameter) : List String :=
  match p with
  | some p => if p.holds then [p.text] else []
  | none => []

/-- The words of an option with a value. -/
def optionWords (flag : String) (p : Option Parameter) : List String :=
  match argumentWords p with
  | [] => []
  | words => flag :: words

/-- The words of an option without a value. -/
def flagWords (flag : String) (p : Option Parameter) : List String :=
  if p.any Parameter.holds then [flag] else []

def Parameters.words (ps : Parameters) : List String :=
  let modelsDir := ps.modelsDir.filter fun p => !p.isText defaultModelsDir
  argumentWords ps.schema ++ argumentWords ps.output ++ optionWords "--config" ps.config ++
    optionWords "--models-dir" modelsDir ++ flagWords "--no-generation-comment" ps.noComment ++
    flagWords "--verbose" ps.verbose

/-- The text that stands for the command. -/
def Parameters.command (ps : Parameters) : String :=
  " ".intercalate (Generation.programName :: ps.words)

end DartModels.CommandLine
