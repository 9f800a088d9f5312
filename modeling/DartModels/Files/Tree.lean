/-! # File trees

A tree maps places to entries. A place is the list of names that leads to it from the root, which
is always a folder.
-/

namespace DartModels.Files

/-- Contents are compared byte by byte. -/
instance (priority := high) decidableEqContent : DecidableEq ByteArray :=
  ByteArray.decEq

inductive Entry
  | folder
  | file (content : ByteArray)
  deriving DecidableEq

abbrev Place := List String

structure Tree where
  entries : List (Place × Entry)

namespace Tree

def empty : Tree := ⟨[]⟩

def get? (t : Tree) (p : Place) : Option Entry :=
  if p = [] then some .folder else t.entries.lookup p

/-- An entry that is there keeps its position. -/
def setEntry (p : Place) (e : Entry) : List (Place × Entry) → List (Place × Entry)
  | [] => [(p, e)]
  | (q, old) :: rest => if q = p then (q, e) :: rest else (q, old) :: setEntry p e rest

def put (t : Tree) (p : Place) (e : Entry) : Tree :=
  ⟨setEntry p e t.entries⟩

def erase (t : Tree) (p : Place) : Tree :=
  ⟨t.entries.filter fun entry => entry.1 != p⟩

def isFolder (t : Tree) (p : Place) : Bool :=
  t.get? p = some .folder

def content? (t : Tree) (p : Place) : Option ByteArray :=
  match t.get? p with
  | some (.file content) => some content
  | _ => none

theorem lookup_setEntry (p q : Place) (e : Entry) (entries : List (Place × Entry)) :
    (setEntry p e entries).lookup q = if q = p then some e else entries.lookup q := by
  induction entries with
  | nil =>
    by_cases h : q = p
    · simp [setEntry, h]
    · simp [setEntry, List.lookup_cons, h, beq_eq_false_iff_ne.2 h]
  | cons entry rest ih =>
    obtain ⟨r, old⟩ := entry
    rw [setEntry]
    split
    · next hr =>
      subst hr
      by_cases h : q = r
      · simp [h]
      · simp [List.lookup_cons, h, beq_eq_false_iff_ne.2 h]
    · next hr =>
      by_cases h : q = r
      · subst h
        simp [hr]
      · simp [List.lookup_cons, beq_eq_false_iff_ne.2 h, ih]

theorem get?_put {p : Place} (h : p ≠ []) (t : Tree) (q : Place) (e : Entry) :
    (t.put p e).get? q = if q = p then some e else t.get? q := by
  by_cases hq : q = []
  · subst hq
    simp [get?, Ne.symm h]
  · simp [get?, put, hq, lookup_setEntry]

theorem lookup_filter_ne (p q : Place) (entries : List (Place × Entry)) :
    (entries.filter fun entry => entry.1 != p).lookup q =
      if q = p then none else entries.lookup q := by
  induction entries with
  | nil => simp
  | cons entry rest ih =>
    obtain ⟨r, old⟩ := entry
    by_cases hr : r = p
    · subst hr
      by_cases hq : q = r
      · simp [hq] at ih ⊢
        exact ih
      · simp [List.lookup_cons, hq, beq_eq_false_iff_ne.2 hq] at ih ⊢
        exact ih
    · by_cases hq : q = r
      · subst hq
        simp [hr]
      · simp [List.lookup_cons, hr, beq_eq_false_iff_ne.2 hq] at ih ⊢
        exact ih

theorem get?_erase {p : Place} (h : p ≠ []) (t : Tree) (q : Place) :
    (t.erase p).get? q = if q = p then none else t.get? q := by
  by_cases hq : q = []
  · subst hq
    simp [get?, Ne.symm h]
  · simp [get?, erase, hq, lookup_filter_ne]

end Tree

end DartModels.Files
