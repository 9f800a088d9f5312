import DartModels.Files.Tree
import DartModels.Path

/-! # Access to a tree

Operations on absolute paths and the reasons for which they are refused. A path is walked name by
name from the root; double dots lead to the folder above.
-/

namespace DartModels.Files

inductive Refusal
  | notFound
  | notDirectory
  | isDirectory
  | alreadyExists
  | nameTooLong
  | busy
  deriving DecidableEq, Repr

def Refusal.message : Refusal → String
  | .notFound => "No such file or directory"
  | .notDirectory => "Not a directory"
  | .isDirectory => "Is a directory"
  | .alreadyExists => "File exists"
  | .nameTooLong => "File name too long"
  | .busy => "Device or resource busy"

/-- A path with a NUL character reaches no operation. -/
inductive AccessFault
  | refused (why : Refusal)
  | nulInPath
  deriving DecidableEq, Repr

/-- The most bytes a name may have. -/
def maxNameBytes : Nat := 255

/-- The fewest bytes that are too many for a path. -/
def pathBytesLimit : Nat := 4096

/-- What stands under a name in a folder. -/
def find (t : Tree) (folder : Place) (name : String) : Except Refusal (Option Entry) :=
  if maxNameBytes < name.utf8ByteSize then .error .nameTooLong
  else .ok (t.get? (folder ++ [name]))

/-- The folder that a segment leads to. -/
def enter (t : Tree) (folder : Place) (segment : String) : Except Refusal Place :=
  if segment = ".." then .ok folder.dropLast
  else match find t folder segment with
    | .error why => .error why
    | .ok (some .folder) => .ok (folder ++ [segment])
    | .ok (some (.file _)) => .error .notDirectory
    | .ok none => .error .notFound

def walk (t : Tree) (folder : Place) : List String → Except Refusal Place
  | [] => .ok folder
  | segment :: rest =>
    match enter t folder segment with
    | .ok next => walk t next rest
    | .error why => .error why

/-- Where a path ends: at a name in a folder, or at a folder that is reached without naming it. -/
inductive Spot
  | named (folder : Place) (name : String)
  | reached (folder : Place)
  deriving DecidableEq, Repr

def locateSegments (t : Tree) (segments : List String) : Except Refusal Spot :=
  match walk t [] segments.dropLast with
  | .error why => .error why
  | .ok folder =>
    match segments.getLast? with
    | none => .ok (.reached folder)
    | some ".." => .ok (.reached folder.dropLast)
    | some name => .ok (.named folder name)

def locate (t : Tree) (p : Path) : Except AccessFault Spot :=
  if p.text.toList.contains '\x00' then .error .nulInPath
  else if pathBytesLimit ≤ p.text.utf8ByteSize then .error (.refused .nameTooLong)
  else (locateSegments t p.segments).mapError .refused

/-- The entry at a path, with its place. -/
def entryAt (t : Tree) (p : Path) : Except AccessFault (Option (Place × Entry)) :=
  match locate t p with
  | .error fault => .error fault
  | .ok (.reached folder) => .ok (some (folder, .folder))
  | .ok (.named folder name) =>
    match find t folder name with
    | .error why => .error (.refused why)
    | .ok found => .ok (found.map fun e => (folder ++ [name], e))

def isFolderAt (t : Tree) (p : Path) : Bool :=
  match entryAt t p with
  | .ok (some (_, .folder)) => true
  | _ => false

/-- The place of a new entry at a path where nothing stands yet. -/
def vacancy (t : Tree) (p : Path) : Except AccessFault Place :=
  match locate t p with
  | .error fault => .error fault
  | .ok (.reached _) => .error (.refused .alreadyExists)
  | .ok (.named folder name) =>
    match find t folder name with
    | .error why => .error (.refused why)
    | .ok (some _) => .error (.refused .alreadyExists)
    | .ok none => .ok (folder ++ [name])

/-- The place of a file that is to be replaced or made at a path. -/
def replaceable (t : Tree) (p : Path) : Except AccessFault Place :=
  match locate t p with
  | .error fault => .error fault
  | .ok (.reached _) => .error (.refused .busy)
  | .ok (.named folder name) =>
    match find t folder name with
    | .error why => .error (.refused why)
    | .ok (some .folder) => .error (.refused .isDirectory)
    | .ok _ => .ok (folder ++ [name])

end DartModels.Files
