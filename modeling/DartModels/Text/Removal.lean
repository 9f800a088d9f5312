/-! # Removal

Removing from a text whatever a matcher recognizes. A matcher tells the length of what it recognizes
at the front of a text, zero if there is nothing. Matches are taken from the left, and the search
goes on behind each of them.
-/

namespace DartModels.Text

/-- The text without its matches; the first `skip` characters belong to a match already found. -/
def removeFrom (matchLength : List Char → Nat) : Nat → List Char → List Char
  | _, [] => []
  | skip + 1, _ :: rest => removeFrom matchLength skip rest
  | 0, c :: rest =>
    match matchLength (c :: rest) with
    | 0 => c :: removeFrom matchLength 0 rest
    | length + 1 => removeFrom matchLength length rest

def remove (matchLength : List Char → Nat) (s : List Char) : List Char :=
  removeFrom matchLength 0 s

variable {matchLength : List Char → Nat}

@[simp]
theorem remove_nil : remove matchLength [] = [] := by
  simp [remove, removeFrom]

theorem removeFrom_eq_remove_drop (n : Nat) (s : List Char) :
    removeFrom matchLength n s = remove matchLength (s.drop n) := by
  induction n generalizing s with
  | zero => rfl
  | succ n ih =>
    cases s with
    | nil => simp [removeFrom]
    | cons c rest => simpa [removeFrom] using ih rest

theorem remove_cons {c : Char} {rest : List Char} (h : matchLength (c :: rest) = 0) :
    remove matchLength (c :: rest) = c :: remove matchLength rest := by
  simp [remove, removeFrom, h]

theorem remove_append_match {found rest : List Char} (hne : found ≠ [])
    (h : matchLength (found ++ rest) = found.length) :
    remove matchLength (found ++ rest) = remove matchLength rest := by
  cases found with
  | nil => exact absurd rfl hne
  | cons c found =>
    rw [List.cons_append, remove, removeFrom]
    rw [List.cons_append, List.length_cons] at h
    rw [h]
    exact (removeFrom_eq_remove_drop _ _).trans (by simp)

end DartModels.Text
