import DartModels.Dart.Structure
import DartModels.Files.Access

/-! # Atomic writes

A file is written next to its target under a name of its own and then takes the target's place. A
disk remembers every state it went through, so that it can be said what a reader would have seen at
any moment.
-/

namespace DartModels.Files

/-- A tree and the states before it, latest first. -/
structure Disk where
  tree : Tree
  past : List Tree

def Disk.ofTree (t : Tree) : Disk := ⟨t, []⟩

def Disk.become (d : Disk) (t : Tree) : Disk :=
  ⟨t, d.tree :: d.past⟩

/-- A new folder at a path. -/
def makeFolder (d : Disk) (p : Path) : Except AccessFault Disk :=
  (vacancy d.tree p).map fun place => d.become (d.tree.put place .folder)

/-- A folder that is there already is as good as a new one. -/
def settle (d : Disk) (p : Path) (fault : AccessFault) : Except AccessFault Unit :=
  match fault with
  | .refused _ => if isFolderAt d.tree p then .ok () else .error fault
  | .nulInPath => .error fault

/-- Makes a folder and the missing ones above it; the segments are given last one first. -/
def ensureFolder (slashes : Nat) : List String → Disk → Except AccessFault Unit × Disk
  | [], d => (.ok (), d)
  | segment :: above, d =>
    let p : Path := ⟨slashes, (segment :: above).reverse⟩
    match makeFolder d p with
    | .ok d => (.ok (), d)
    | .error (.refused .notFound) =>
      match ensureFolder slashes above d with
      | (.error fault, d) => (.error fault, d)
      | (.ok _, d) =>
        match makeFolder d p with
        | .ok d => (.ok (), d)
        | .error fault => (settle d p fault, d)
    | .error fault => (settle d p fault, d)

/-- A number in eight digits or more. -/
def serial (n : Nat) : String :=
  let digits := (Nat.repr n).toList
  String.ofList (List.replicate (8 - digits.length) '0' ++ digits)

def temporaryName (name : String) (n : Nat) : String :=
  s!".{name}.{serial n}.tmp"

/-- A temporary file stands next to its target, whatever `..` leads to there. -/
def temporaryPath (target : Path) (n : Nat) : Path :=
  target.parent.normalized.join ⟨0, [temporaryName target.name n]⟩

/-- The first number whose temporary name is not taken in a folder. -/
def freeNumber (t : Tree) (folder : Place) (name : String) : Nat :=
  let isFree := fun n => (t.get? (folder ++ [temporaryName name n])).isNone
  ((List.range (t.entries.length + 1)).find? isFree).getD 0

/-- The place of a new temporary file. The number stands for eight random characters, so names are
measured with eight digits and never run out. -/
def reserve (t : Tree) (target : Path) : Except AccessFault Place :=
  match locate t (temporaryPath target 0) with
  | .error fault => .error fault
  | .ok (.reached _) => .error (.refused .alreadyExists)
  | .ok (.named folder name) =>
    match find t folder name with
    | .error why => .error (.refused why)
    | .ok _ => .ok (folder ++ [temporaryName target.name (freeNumber t folder target.name)])

/-- How content reaches a file: in pieces, until all of it is there or more is refused. -/
structure Transfer where
  pieces : List ByteArray
  refused? : Option Refusal

def Transfer.whole (content : ByteArray) : Transfer := ⟨[content], none⟩

/-- Appends pieces of content to a file, one state after each piece. -/
def fill (place : Place) : List ByteArray → Disk → Disk
  | [], d => d
  | piece :: rest, d =>
    let old := (d.tree.content? place).getD ByteArray.empty
    fill place rest (d.become (d.tree.put place (.file (old ++ piece))))

/-- Moves a file onto a path. -/
def moveTo (d : Disk) (source : Place) (target : Path) : Except AccessFault Disk :=
  (replaceable d.tree target).map fun place =>
    d.become ((d.tree.put place (.file ((d.tree.content? source).getD ByteArray.empty))).erase
      source)

/-- Moves a filled file onto a path, unless the transfer was cut short. -/
def finish (transfer : Transfer) (d : Disk) (source : Place) (target : Path) :
    Except AccessFault Disk :=
  match transfer.refused? with
  | some why => .error (.refused why)
  | none => moveTo d source target

def remove (d : Disk) (place : Place) : Disk :=
  d.become (d.tree.erase place)

/-- Replaces the file at a path by what is transferred, or leaves every file as it was. -/
def replaceFile (target : Path) (transfer : Transfer) (d : Disk) :
    Except AccessFault Unit × Disk :=
  match ensureFolder target.slashes target.parent.segments.reverse d with
  | (.error fault, d) => (.error fault, d)
  | (.ok _, d) =>
    match reserve d.tree target with
    | .error fault => (.error fault, d)
    | .ok temporary =>
      let d := d.become (d.tree.put temporary (.file ByteArray.empty))
      let d := fill temporary transfer.pieces d
      match finish transfer d temporary target with
      | .ok d => (.ok (), d)
      | .error fault => (.error fault, remove d temporary)

inductive WriteFault
  | code (fault : Dart.StructureFault)
  | access (fault : AccessFault)
  deriving DecidableEq, Repr

/-- Writes a generated file, after the structural check unless that is waived. -/
def writeBy (transfer : Transfer) (target : Path) (content : String) (check : Bool) (d : Disk) :
    Except WriteFault Unit × Disk :=
  match if check then Dart.checkStructure content.toList else .ok () with
  | .error fault => (.error (.code fault), d)
  | .ok _ =>
    let (result, d) := replaceFile target transfer d
    (result.mapError .access, d)

def write (target : Path) (content : String) (check : Bool) (d : Disk) :
    Except WriteFault Unit × Disk :=
  writeBy (.whole content.toUTF8) target content check d

end DartModels.Files
