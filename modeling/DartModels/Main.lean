import DartModels.CommandLine.Command
import DartModels.Files.Change

/-! # The program

The program looks at the places that matter, runs the command on what stands there, and carries out
the changes to the disk one by one, in the order in which the command made them.
-/

namespace DartModels.CommandLine

open Files

/-- The places on the way to a path. -/
def placesTo (p : Path) : List Place :=
  (List.range p.segments.length).map fun n =>
    (Path.mk p.slashes (p.segments.take (n + 1))).normalized.segments

/-- The places that the arguments name themselves. -/
def namedPlaces (current : Path) (args : List String) : List Place :=
  match readArguments args with
  | .error _ => []
  | .ok a =>
    let names := a.positional ++ (a.value? .config).toList
    names.flatMap fun name => placesTo (current.join (.ofString name))

def placeText (place : Place) : String :=
  (Path.mk 1 place).text

/-- Adds what stands at a place to a tree that knows the folder around it. -/
def look (t : Tree) (place : Place) : IO Tree := do
  if (t.get? place).isSome || !t.isFolder place.dropLast then
    return t
  match ← (IO.FS.readBinFile (placeText place)).toBaseIO with
  | .ok content => return t.put place (.file content)
  | .error (.inappropriateType ..) => return t.put place .folder
  | .error _ => return t

def perform : Change → IO Unit
  | .makeFolder place => IO.FS.createDirAll (placeText place)
  | .writeFile place content => IO.FS.writeBinFile (placeText place) content
  | .moveFile source target => IO.FS.rename (placeText source) (placeText target)
  | .removeFile place => IO.FS.removeFile (placeText place)

/-- The standard input if the arguments ask for it. -/
def readInput (args : List String) : IO (List UInt8) := do
  if args.contains "-" then
    return (← IO.FS.readBinFile "/dev/stdin").toList
  return []

def usageLine : String :=
  s!"Usage: {Generation.programName} [OPTIONS] SCHEMA OUTPUT\n"

def helpText : String :=
  String.join ([
    "",
    "  Generate Dart models from the JSON Schema SCHEMA ('-' for stdin) into OUTPUT.",
    "",
    "Options:",
    "  -c, --config FILE        Read options from a JSON file.",
    "  -m, --models-dir TEXT    Sub-folder of OUTPUT receiving the models.",
    "  --no-generation-comment  Do not name the command in the generated files.",
    "  -v, --verbose            Log every written file.",
    "  --help                   Show this message and exit."].map fun line => line ++ "\n")

def tell : Ending → IO Unit
  | .usage error => IO.eprint (usageLine ++ errorLine error.message)
  | .help => IO.print (usageLine ++ helpText)
  | .finished stdout stderr => do
    IO.eprint stderr
    IO.print stdout
  | .failed stderr => IO.eprint stderr
  | .crashed why stderr => IO.eprint (stderr ++ errorLine why.message)

/-- Runs the command on the machine. The first run tells which places the command would touch, and
the second one knows what stands there. -/
def runHere (args : List String) : IO Ending := do
  let current := Path.ofString (← IO.currentDir).toString
  let input ← readInput args
  let named ← (placesTo current ++ namedPlaces current args).foldlM look Tree.empty
  let (_, planned) := execute ⟨.ofTree named, current, input⟩ args
  let known ← planned.places.foldlM look named
  let (ending, disk) := execute ⟨.ofTree known, current, input⟩ args
  disk.changes.forM perform
  return ending

end DartModels.CommandLine

def main (args : List String) : IO UInt32 := do
  let ending ← DartModels.CommandLine.runHere args
  DartModels.CommandLine.tell ending
  return ending.exitCode.toUInt32
