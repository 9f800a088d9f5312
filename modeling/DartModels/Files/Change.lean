import DartModels.Files.Write

/-! # Changes between trees

The states of a disk, taken in order, say what has to be done to the first tree to reach the last.
Operations on a tree keep its entries in position, so two neighbouring states are compared entry by
entry.
-/

namespace DartModels.Files

inductive Change
  | makeFolder (place : Place)
  | writeFile (place : Place) (content : ByteArray)
  | moveFile (source target : Place)
  | removeFile (place : Place)
  deriving DecidableEq

/-- The places that are gone from a list of entries, and the entries that are new or different. -/
def compareEntries :
    List (Place × Entry) → List (Place × Entry) → List Place × List (Place × Entry)
  | [], new => ([], new)
  | old, [] => (old.map (·.1), [])
  | before :: old, after :: new =>
    if before.1 = after.1 then
      let r := compareEntries old new
      if before.2 = after.2 then r else (r.1, after :: r.2)
    else
      let r := compareEntries old (after :: new)
      (before.1 :: r.1, r.2)

def Change.ofEntry (e : Place × Entry) : Change :=
  match e.2 with
  | .folder => .makeFolder e.1
  | .file content => .writeFile e.1 content

/-- A file that goes while another one takes its content has been moved. -/
def Change.between (before after : Tree) : List Change :=
  match compareEntries before.entries after.entries with
  | ([source], [(target, .file content)]) =>
    if before.content? source = some content then [.moveFile source target]
    else [.removeFile source, .writeFile target content]
  | (gone, new) => gone.map .removeFile ++ new.map .ofEntry

/-- The changes that lead from the first state of a disk to its tree. -/
def Disk.changes (d : Disk) : List Change :=
  let states := d.past.reverse ++ [d.tree]
  (List.zipWith Change.between states states.tail).flatten

/-- Every place that some state of a disk has an entry at. -/
def Disk.places (d : Disk) : List Place :=
  ((d.tree :: d.past).flatMap fun t => t.entries.map (·.1)).eraseDups

theorem compareEntries_self (entries : List (Place × Entry)) :
    compareEntries entries entries = ([], []) := by
  induction entries with
  | nil => rfl
  | cons entry rest ih => simp [compareEntries, ih]

@[simp]
theorem Change.between_self (t : Tree) : Change.between t t = [] := by
  simp [Change.between, compareEntries_self]

@[simp]
theorem Disk.changes_ofTree (t : Tree) : (Disk.ofTree t).changes = [] := rfl

end DartModels.Files
