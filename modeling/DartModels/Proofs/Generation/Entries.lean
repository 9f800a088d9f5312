import DartModels.Proofs.Generation.Drafts

/-! # Entries and their definitions

Every entry of a schema that is an object and no comment is read as a definition, in order. What
the options keep of the definitions and of their properties is kept of the entries.
-/

namespace DartModels

namespace Schema

/-- The schemas of the properties of an entry. -/
def propertiesOf : Json → List (String × Json)
  | .obj members =>
    match members.lookup "properties" with
    | some (.obj properties) => properties
    | _ => []
  | _ => []

/-- Whether an entry is read as a definition. -/
def isDefinition (entry : String × Json) : Bool :=
  match entry.2 with
  | .obj _ => !isComment entry.1
  | _ => false

/-- The property of a member in the definition of a name. -/
def propertyOf (definition : String) (p : String × Json) : Property :=
  ⟨p.1, .ofJson (propertyPath definition p.1) p.2⟩

def definitionOf (entry : String × Json) : Definition :=
  ⟨entry.1, (propertiesOf entry.2).map (propertyOf entry.1)⟩

theorem definitionOf_obj (name : String) (members : List (String × Json)) :
    definitionOf (name, .obj members) = .ofMembers name members := by
  dsimp only [definitionOf, Definition.ofMembers, propertiesOf]
  cases members.lookup "properties" with
  | none => rfl
  | some properties => cases properties <;> rfl

theorem readEntry_of_isDefinition {entry : String × Json} (h : isDefinition entry = true) :
    readEntry entry.1 entry.2 = .ok (definitionOf entry) := by
  obtain ⟨name, value⟩ := entry
  cases value with
  | obj members =>
    have hcomment : ¬ isComment name = true := by simpa [isDefinition] using h
    rw [readEntry, if_neg hcomment, definitionOf_obj]
  | null | bool | int | float | str | arr => cases h

theorem readEntry_of_not_isDefinition {entry : String × Json} (h : isDefinition entry = false) :
    ∃ record, readEntry entry.1 entry.2 = .error record := by
  obtain ⟨name, value⟩ := entry
  unfold readEntry
  split
  · exact ⟨_, rfl⟩
  · next hcomment =>
    cases value with
    | obj members => simp [isDefinition, hcomment] at h
    | null | bool | int | float | str | arr => exact ⟨_, rfl⟩

theorem definitions_ofEntries (entries : List (String × Json)) :
    (Reading.ofEntries entries).document.definitions =
      (entries.filter isDefinition).map definitionOf := by
  induction entries with
  | nil => rfl
  | cons entry rest ih =>
    rw [Reading.ofEntries, List.filter_cons]
    cases hentry : isDefinition entry with
    | true =>
      rw [readEntry_of_isDefinition hentry]
      exact congrArg (definitionOf entry :: ·) ih
    | false =>
      obtain ⟨record, hrecord⟩ := readEntry_of_not_isDefinition hentry
      rw [hrecord]
      exact ih

end Schema

namespace Generation

open Model Schema

/-- The entries that are read as definitions and kept. -/
def keptEntries (o : Options) (entries : List (String × Json)) : List (String × Json) :=
  (entries.filter isDefinition).filter fun entry => o.ignoresClass entry.1 = .ok false

/-- The properties of an entry that are kept. -/
def keptMembers (o : Options) (entry : String × Json) : List (String × Json) :=
  (propertiesOf entry.2).filter fun p => o.ignoresField p.1 = .ok false

variable {o : Options}

theorem keptDefinitions_definitionOf {entries : List (String × Json)} {kept : List Definition}
    (h : keptDefinitions o ((entries.filter isDefinition).map definitionOf) = .ok kept) :
    kept = (keptEntries o entries).map definitionOf := by
  rw [keptDefinitions_eq, keep_eq_ok_iff, List.filter_map] at h
  exact h.2

theorem keptProperties_definitionOf {entry : String × Json} {kept : List Property}
    (h : keptProperties o (definitionOf entry).properties = .ok kept) :
    kept = (keptMembers o entry).map (propertyOf entry.1) := by
  rw [keptProperties_eq, keep_eq_ok_iff, definitionOf, List.filter_map] at h
  exact h.2

end Generation

end DartModels
