import DartModels.CommandLine.Arguments
import DartModels.CommandLine.Header
import DartModels.Generation.Run
import DartModels.Text.Escapes

/-! # The command

The command reads a schema and, on request, options from files, generates the models into a folder
below the output, and tells what happened on the two output streams. Records are shown as they are
and messages without terminal escapes. Wrong usage ends the command with 2 and any other failure
with 1.
-/

namespace DartModels.CommandLine

open Files Generation

/-- What the command finds when it starts. -/
structure Setting where
  disk : Disk
  current : Path
  input : List UInt8

inductive Crash
  | run (crash : Generation.Crash)
  | configNotUtf8
  deriving DecidableEq, Repr

def Crash.message : Crash → String
  | .run (.options .wrongType) => "An option has a value of the wrong kind"
  | .run (.options .absent) => "The options are not a table of all that is needed"
  | .run .tooManyDigits => "An integer has too many digits"
  | .run .nulInPath => "A path holds a NUL character"
  | .configNotUtf8 => "The options file is not UTF-8"

/-- How the command ended, and what it said unless it only explained its usage. -/
inductive Ending
  | usage (error : UsageError)
  | help
  | finished (stdout stderr : String)
  | failed (stderr : String)
  | crashed (why : Crash) (stderr : String)
  deriving DecidableEq, Repr

def Ending.exitCode : Ending → Nat
  | .usage _ => 2
  | .help => 0
  | .finished .. => 0
  | .failed _ => 1
  | .crashed .. => 1

/-- The arguments once they have been checked. -/
structure Request where
  config : Option Path
  modelsDir : String
  noComment : Bool
  verbose : Bool
  schema : Option String
  output : Path

inductive Problem
  | usage (error : UsageError)
  | nulInPath
  deriving DecidableEq, Repr

def hasNul (s : String) : Bool :=
  s.toList.contains '\x00'

/-- The absolute path without dots that a text names. -/
def absolute (current : Path) (s : String) : Except Problem Path :=
  if hasNul s then .error .nulInPath
  else
    let p := (current.join (.ofString s)).normalized
    .ok ⟨1, p.segments⟩

/-- The content of the file at a path. -/
def fileContent (t : Tree) (p : Path) : Option ByteArray :=
  match entryAt t p with
  | .ok (some (_, .file content)) => some content
  | _ => none

/-- The path of an options file, which must be there. -/
def checkConfig (s : Setting) (given : String) : Except Problem Path :=
  match absolute s.current given with
  | .error e => .error e
  | .ok p => if (fileContent s.disk.tree p).isSome then .ok p else .error (.usage .badConfig)

/-- The schema content; a dash stands for the standard input. The path has to end in a name. -/
def openSchema (s : Setting) (given : String) : Except Problem (List UInt8) :=
  if given = "-" then .ok s.input
  else if hasNul given then .error .nulInPath
  else if ["", ".", ".."].contains ((Text.split '/' given).getLastD "") then
    .error (.usage .badSchema)
  else match fileContent s.disk.tree (s.current.join (.ofString given)) with
    | some content => .ok content.toList
    | none => .error (.usage .badSchema)

/-- The path of the output folder, which must not be a file. -/
def checkOutput (s : Setting) (given : String) : Except Problem Path :=
  match absolute s.current given with
  | .error e => .error e
  | .ok p => if (fileContent s.disk.tree p).isSome then .error (.usage .badOutput) else .ok p

/-- The checked arguments and the schema that they name. -/
def Request.ofArguments (s : Setting) (a : Arguments) :
    Except Problem (Request × List UInt8) := do
  let config ← match a.value? .config with
    | some given => (checkConfig s given).map some
    | none => pure none
  match a.positional with
  | [] => .error (.usage .missingArgument)
  | schema :: others =>
    let content ← openSchema s schema
    match others with
    | [] => .error (.usage .missingArgument)
    | output :: extra =>
      let output ← checkOutput s output
      if !extra.isEmpty then .error (.usage .extraArguments)
      else
        return (
          { config := config
            modelsDir := (a.value? .modelsDir).getD defaultModelsDir
            noComment := a.isGiven .noComment
            verbose := a.isGiven .verbose
            schema := if schema = "-" then none else some schema
            output := output }, content)

def Request.parameters (r : Request) : Parameters where
  config := some (.plain (match r.config with
    | some p => .str p.text
    | none => .null))
  modelsDir := some (.plain (.str r.modelsDir))
  noComment := some (.plain (.bool r.noComment))
  verbose := some (.plain (.bool r.verbose))
  schema := some (.stream (some (r.schema.getD "<stdin>")))
  output := some (.plain (.str r.output.text))

/-- The folder that receives the models. -/
def Request.root (r : Request) : Path :=
  if r.modelsDir = "" then r.output else r.output.join (.ofString r.modelsDir)

/-- Text with every line break written as a line feed. -/
def unifyBreaks : List Char → List Char
  | [] => []
  | '\r' :: '\n' :: rest => '\n' :: unifyBreaks rest
  | '\r' :: rest => '\n' :: unifyBreaks rest
  | c :: rest => c :: unifyBreaks rest

inductive ConfigFault
  | malformed (cause : Json.Cause) (place : Json.Place)
  | crash (why : Crash)
  deriving DecidableEq, Repr

def readConfig (content : ByteArray) : Except ConfigFault Options :=
  match Text.Utf8.decode content.toList with
  | .error _ => .error (.crash .configNotUtf8)
  | .ok s =>
    let s := unifyBreaks s
    match Json.read s with
    | .error (.malformed cause left) => .error (.malformed cause (.ofLeft s left))
    | .error .tooManyDigits => .error (.crash (.run .tooManyDigits))
    | .ok value =>
      (Options.ofJson value).mapError fun fault => .crash (.run (.options fault))

/-- The options, with the header comment off if the command says so. -/
def Request.options (r : Request) (t : Tree) : Except ConfigFault Options := do
  let o ← match r.config with
    | none => pure {}
    | some p => readConfig ((fileContent t p).getD ByteArray.empty)
  return if r.noComment then { o with generationComment := .bool false } else o

def recordLine (r : Record) : String :=
  s!"{r.level.name} {programName}.{r.speaker.name} - {r.message}\n"

/-- The records shown on the error stream. -/
def recordLines (verbose : Bool) (records : List Record) : String :=
  String.join ((records.filter fun r => verbose || r.level.isSerious).map recordLine)

/-- A message to the user on a line of its own. -/
def messageLine (message : String) : String :=
  Text.withoutEscapes (message ++ "\n")

def errorLine (message : String) : String :=
  messageLine s!"Error: {message}"

def warningLine (message : String) : String :=
  messageLine s!"Warning: {message}"

def successLine (root : Path) (count : Nat) : String :=
  messageLine s!"Dart models generated successfully! ({count} files in {root.text})"

def Request.execute (r : Request) (content : List UInt8) (d : Disk) : Ending × Disk :=
  match r.options d.tree with
  | .error (.crash why) => (.crashed why "", d)
  | .error (.malformed cause place) =>
    (.failed (errorLine s!"Invalid config file: {Json.faultMessage cause place}"), d)
  | .ok o =>
    let run := Generation.run (.bytes content) o r.parameters.command r.root d
    let log := recordLines r.verbose run.records
    match run.outcome with
    | .error crash => (.crashed (.run crash) log, run.disk)
    | .ok report =>
      let log := log ++ String.join (report.warnings.map warningLine)
      match report.error? with
      | some message => (.failed (log ++ errorLine message), run.disk)
      | none => (.finished (successLine r.root report.written.length) log, run.disk)

/-- Runs the command with its arguments. -/
def execute (s : Setting) (args : List String) : Ending × Disk :=
  match readArguments args with
  | .error e => (.usage e, s.disk)
  | .ok a =>
    if a.isGiven .help then (.help, s.disk)
    else match Request.ofArguments s a with
      | .error (.usage e) => (.usage e, s.disk)
      | .error .nulInPath => (.crashed (.run .nulInPath) "", s.disk)
      | .ok (request, content) => request.execute content s.disk

end DartModels.CommandLine
