import DartModels.Binary64.Basic

/-! # JSON values

Objects keep their members in the order in which the names first appear; integers are exact and
all other numbers are binary64.
-/

namespace DartModels

universe u

inductive Json
  | null
  | bool (value : Bool)
  | int (value : Int)
  | float (value : Binary64)
  | str (value : String)
  | arr (items : List Json)
  | obj (members : List (String × Json))
  deriving Repr

instance : Inhabited Json := ⟨.null⟩

namespace Json

/-- A repeated name keeps its place and takes the new value. -/
def setMember {α : Type u} (name : String) (value : α) : List (String × α) → List (String × α)
  | [] => [(name, value)]
  | (n, v) :: rest =>
    if n = name then (n, value) :: rest else (n, v) :: setMember name value rest

/-- The value of a member of an object. -/
def member? (name : String) : Json → Option Json
  | .obj members => members.lookup name
  | _ => none

def string? : Json → Option String
  | .str s => some s
  | _ => none

def isString : Json → Bool
  | .str _ => true
  | _ => false

/-- Nothing, zero, false and everything empty do not hold. -/
def holds : Json → Bool
  | .null => false
  | .bool b => b
  | .int n => n != 0
  | .float (.finite _ mantissa _) => mantissa != 0
  | .float _ => true
  | .str s => s != ""
  | .arr items => !items.isEmpty
  | .obj members => !members.isEmpty

theorem lookup_setMember {α : Type u} (name : String) (value : α) (members : List (String × α)) :
    (setMember name value members).lookup name = some value := by
  induction members with
  | nil => simp [setMember]
  | cons m rest ih =>
    obtain ⟨n, v⟩ := m
    rw [setMember]
    split
    · next h => simp [h]
    · next h => simp [List.lookup_cons, beq_eq_false_iff_ne.2 (Ne.symm h), ih]

theorem lookup_setMember_of_ne {α : Type u} {name other : String} (value : α)
    (members : List (String × α)) (h : other ≠ name) :
    (setMember name value members).lookup other = members.lookup other := by
  induction members with
  | nil => simp [setMember, List.lookup_cons, beq_eq_false_iff_ne.2 h]
  | cons m rest ih =>
    obtain ⟨n, v⟩ := m
    rw [setMember]
    split
    · next hn => simp [hn, List.lookup_cons, beq_eq_false_iff_ne.2 h]
    · next => simp only [List.lookup_cons, ih]

theorem mem_of_mem_setMember {α : Type u} {name : String} {value : α}
    {members : List (String × α)} {m : String × α} (h : m ∈ setMember name value members) :
    m ∈ members ∨ m = (name, value) := by
  induction members with
  | nil => simpa [setMember] using h
  | cons first rest ih =>
    obtain ⟨n, v⟩ := first
    rw [setMember] at h
    split at h
    · next hn =>
      rcases List.mem_cons.1 h with rfl | h
      · exact .inr (by rw [hn])
      · exact .inl (List.mem_cons_of_mem _ h)
    · rcases List.mem_cons.1 h with rfl | h
      · exact .inl List.mem_cons_self
      · exact (ih h).imp_left (List.mem_cons_of_mem _)

end Json

end DartModels
