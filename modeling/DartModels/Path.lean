import DartModels.Text.Segments

/-! # Paths

A path is read without looking at any folder: empty segments and single dots vanish, double dots
stay, and an absolute path replaces whatever it is joined to.
-/

namespace DartModels

/-- A path with its number of leading slashes: none, one, or exactly two. -/
structure Path where
  slashes : Nat
  segments : List String
  deriving DecidableEq, Repr

namespace Path

def rootSlashes (s : List Char) : Nat :=
  match (s.takeWhile (· == '/')).length with
  | 0 => 0
  | 2 => 2
  | _ => 1

def ofString (s : String) : Path where
  slashes := rootSlashes s.toList
  segments := (Text.split '/' s).filter fun segment => segment != "" && segment != "."

def isAbsolute (p : Path) : Bool :=
  p.slashes != 0

def join (a b : Path) : Path :=
  if b.isAbsolute then b else ⟨a.slashes, a.segments ++ b.segments⟩

def parent (p : Path) : Path :=
  ⟨p.slashes, p.segments.dropLast⟩

/-- The last segment; empty for a root and for the path that stays in place. -/
def name (p : Path) : String :=
  p.segments.getLastD ""

def text (p : Path) : String :=
  if p.slashes = 0 && p.segments.isEmpty then "."
  else String.ofList (List.replicate p.slashes '/') ++ "/".intercalate p.segments

/-- The path with double dots carried out on its own segments. -/
def normalized (p : Path) : Path :=
  ⟨p.slashes, p.segments.foldl (fun done segment =>
    if segment = ".." then done.dropLast else done ++ [segment]) []⟩

@[simp]
theorem join_of_isAbsolute {a b : Path} (h : b.isAbsolute = true) : a.join b = b := by
  simp [join, h]

@[simp]
theorem segments_join_of_relative {a b : Path} (h : b.isAbsolute = false) :
    (a.join b).segments = a.segments ++ b.segments := by
  simp [join, h]

end Path

end DartModels
