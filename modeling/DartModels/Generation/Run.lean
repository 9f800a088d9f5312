import DartModels.Files.Write
import DartModels.Generation.Draft

/-! # Generation runs

A run drafts and writes one definition after the other. A write that fails stops the run; the files
written before are kept. The report says what was written, what was noted and what went wrong.
-/

namespace DartModels.Generation

open Files Schema

/-- Why a run stopped. -/
inductive Stop
  | options (fault : Options.Fault)
  | code (fault : Dart.StructureFault)
  | write (path : Path) (why : Refusal)
  | nulInPath
  deriving DecidableEq, Repr

def Stop.ofWrite (path : Path) : WriteFault → Stop
  | .code fault => .code fault
  | .access (.refused why) => .write path why
  | .access .nulInPath => .nulInPath

def writeMessage (path : Path) (why : Refusal) : String :=
  s!"Cannot write {path.text}: {why.message}"

/-- Where a run stands. -/
structure Progress where
  disk : Disk
  written : List Path
  records : List Record
  unresolved : List Model.Unresolved

def Progress.start (disk : Disk) : Progress := ⟨disk, [], [], []⟩

def Progress.note (p : Progress) (draft : Draft) : Progress :=
  { p with records := p.records ++ draft.records, unresolved := p.unresolved ++ draft.unresolved }

/-- A path is listed once, where it was written first. -/
def addPath (path : Path) (written : List Path) : List Path :=
  if written.contains path then written else written ++ [path]

def Progress.wrote (p : Progress) (path : Path) (disk : Disk) : Progress :=
  { p with
    disk := disk
    written := addPath path p.written
    records := p.records ++ [⟨.debug, .generation, s!"Wrote {path.text}"⟩] }

def writeFiles (o : Options) (root : Path) :
    List GeneratedFile → Progress → Except Stop Unit × Progress
  | [], p => (.ok (), p)
  | file :: rest, p =>
    let path := root.join file.path
    match write path file.content o.validate.holds p.disk with
    | (.ok _, disk) => writeFiles o root rest (p.wrote path disk)
    | (.error fault, disk) => (.error (.ofWrite path fault), { p with disk := disk })

def generateEach (d : Document) (o : Options) (command : String) (root : Path) :
    List Definition → Progress → Except Stop Unit × Progress
  | [], p => (.ok (), p)
  | definition :: rest, p =>
    let draft := draftDefinition d o command definition
    match draft.fault? with
    | some fault => (.error (.options fault), p.note draft)
    | none =>
      match writeFiles o root draft.files (p.note draft) with
      | (.error stop, p) => (.error stop, p)
      | (.ok _, p) => generateEach d o command root rest p

def finished (root : Path) (p : Progress) : Progress :=
  let message := s!"Generated {p.written.length} files into {root.text}"
  { p with records := p.records ++ [⟨.info, .generation, message⟩] }

/-- Generates and writes the files of a document below a folder. -/
def generate (d : Document) (o : Options) (command : String) (root : Path) (disk : Disk) :
    Except Stop Unit × Progress :=
  match keptDefinitions o d.definitions with
  | .error fault => (.error (.options fault), .start disk)
  | .ok kept =>
    match generateEach d o command root kept (.start disk) with
    | (.error stop, p) => (.error stop, p)
    | (.ok _, p) => (.ok (), finished root p)

/-- The outcome of a run as it is told to the caller. -/
structure Report where
  written : List Path
  error? : Option String
  warnings : List String

def Report.isSuccess (r : Report) : Bool :=
  r.error?.isNone

/-- Faults that no report covers. -/
inductive Crash
  | options (fault : Options.Fault)
  | tooManyDigits
  | nulInPath
  deriving DecidableEq, Repr

structure Run where
  disk : Disk
  records : List Record
  outcome : Except Crash Report

def failureRecord (message : String) : Record :=
  ⟨.error, .generation, s!"Generation failed: {message}"⟩

/-- A run that read its document, told with what it noted on the way. -/
def Run.reported (before : List Record) (p : Progress) (written : List Path)
    (error? : Option String) : Run :=
  let warnings := p.unresolved.map Model.Unresolved.message
  { disk := p.disk
    records := before ++ p.records ++ warnings.map (fun w => ⟨.warning, .generation, w⟩) ++
      (error?.map failureRecord).toList
    outcome := .ok ⟨written, error?, warnings⟩ }

def Run.crashed (before : List Record) (p : Progress) (crash : Crash) : Run :=
  ⟨p.disk, before ++ p.records, .error crash⟩

/-- Reads a document and generates its files; errors are told in the report. -/
def run (input : Input) (o : Options) (command : String) (root : Path) (disk : Disk) : Run :=
  match input.read with
  | .error .tooManyDigits => .crashed [] (.start disk) .tooManyDigits
  | .error fault => .reported [] (.start disk) [] (some fault.message)
  | .ok reading =>
    let (result, p) := generate reading.document o command root disk
    match result with
    | .ok _ => .reported reading.records p p.written none
    | .error (.write path why) =>
      .reported reading.records p p.written (some (writeMessage path why))
    | .error (.code fault) => .reported reading.records p [] (some fault.message)
    | .error (.options fault) => .crashed reading.records p (.options fault)
    | .error .nulInPath => .crashed reading.records p .nulInPath

end DartModels.Generation
