/-! # Journal

The records a run leaves behind: log entries, and warnings about references that lead nowhere.
-/

namespace DartModels

inductive Level
  | debug
  | info
  | warning
  | error
  deriving DecidableEq, Repr

/-- The part of the program that speaks. -/
inductive Speaker
  | reader
  | analysis
  | generation
  deriving DecidableEq, Repr

structure Record where
  level : Level
  speaker : Speaker
  message : String
  deriving DecidableEq, Repr

def Level.name : Level → String
  | .debug => "DEBUG"
  | .info => "INFO"
  | .warning => "WARNING"
  | .error => "ERROR"

/-- Whether records of this level are shown without asking for details. -/
def Level.isSerious : Level → Bool
  | .warning | .error => true
  | .debug | .info => false

def Speaker.name : Speaker → String
  | .reader => "pipeline.schema_ast.parser"
  | .analysis => "pipeline.analyzer.analyzer"
  | .generation => "pipeline.generator"

end DartModels
