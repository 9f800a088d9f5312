import DartModels.Proofs.Generation.Entries
import DartModels.Proofs.Path.Names

/-! # References to definitions

Everything after the name of a table of definitions is one name, slashes and all, so a pointer into
such a table designates the definition of that very name. A pointer that does not start with a
number sign designates nothing, whatever it ends in.
-/

namespace DartModels

open Model Naming Text

namespace Schema

/-- The pointers to the definition of a name, through either table. -/
def definitionPointers (name : String) : List String :=
  [s!"#/definitions/{name}", s!"#/$defs/{name}"]

variable {d : Document} {D : Definition} {name pointer : String} {entries : List (String × Json)}

section Pointers

/-- What stands behind a table is cut at its slashes and joined again. -/
theorem localName_of_table {table rest : List Char} (h : definitionTables.contains table = true) :
    localName ('#' :: '/' :: (table ++ '/' :: rest)) = rest := by
  have htable : '/' ∉ table := by
    rcases List.mem_pair.1 (List.contains_iff_mem.1 h) with rfl | rfl <;> decide
  have hsegments : segments (· == '/') ('#' :: '/' :: (table ++ '/' :: rest)) =
      ['#'] :: table :: segments (· == '/') rest := by
    rw [← List.singleton_append, segments_append (Path.not_slash_of_notMem (by decide)) rfl,
      segments_append (Path.not_slash_of_notMem htable) rfl]
  have hjoined := intercalate_segments '/' rest
  cases hrest : segments (· == '/') rest with
  | nil => exact absurd hrest (segments_ne_nil _ _)
  | cons piece pieces =>
    rw [hrest] at hsegments hjoined
    rw [localName, hsegments]
    simp only [h, if_true, hjoined]

theorem target_of_mem (h : pointer ∈ definitionPointers name) : target pointer = ⟨name, false⟩ := by
  have htarget (table : List Char) (htable : definitionTables.contains table = true)
      (hpointer : pointer.toList = '#' :: '/' :: (table ++ '/' :: name.toList)) :
      target pointer = ⟨name, false⟩ := by
    rw [target, hpointer]
    simp only [localName_of_table htable, String.ofList_toList]
  rcases List.mem_pair.1 h with rfl | rfl
  · exact htarget "definitions".toList (by decide) (by simp [toString])
  · exact htarget "$defs".toList (by decide) (by simp [toString])

theorem resolve?_of_mem (d : Document) (h : pointer ∈ definitionPointers name) :
    d.resolve? pointer = d.find? name := by
  rw [Document.resolve?, target_of_mem h]
  rfl

theorem isExternal_of_head (h : pointer.toList.head? ≠ some '#') :
    (target pointer).isExternal = true := by
  unfold target
  split
  · next rest heq => exact absurd (by rw [heq, List.head?_cons]) h
  · rfl

theorem resolve?_of_head (d : Document) (h : pointer.toList.head? ≠ some '#') :
    d.resolve? pointer = none := by
  rw [Document.resolve?, if_pos (isExternal_of_head h)]

end Pointers

section Table

theorem of_find?_eq_some (h : d.find? name = some D) : D ∈ d.definitions ∧ D.name = name := by
  have hname := List.find?_some (p := fun E : Definition => E.name == name) h
  exact ⟨List.mem_of_find?_eq_some h, beq_iff_eq.1 hname⟩

theorem isSome_find?_iff : (d.find? name).isSome ↔ ∃ D ∈ d.definitions, D.name = name := by
  simp [Document.find?]

theorem isDefinition_iff {value : Json} :
    isDefinition (name, value) = true ↔
      isComment name = false ∧ ∃ members, value = .obj members := by
  cases value <;> simp [isDefinition]

/-- The definitions read under a name are those of its entries that are objects, unless the name is
that of a comment. -/
theorem mem_definitions_ofEntries_iff :
    (D ∈ (Reading.ofEntries entries).document.definitions ∧ D.name = name) ↔
      isComment name = false ∧
        ∃ members, (name, .obj members) ∈ entries ∧ D = .ofMembers name members := by
  rw [definitions_ofEntries, List.mem_map]
  constructor
  · rintro ⟨⟨⟨name', value⟩, hentry, rfl⟩, rfl⟩
    obtain ⟨hin, hdefinition⟩ := List.mem_filter.1 hentry
    obtain ⟨hcomment, members, rfl⟩ := isDefinition_iff.1 hdefinition
    exact ⟨hcomment, members, hin, definitionOf_obj name' members⟩
  · rintro ⟨hcomment, members, hin, rfl⟩
    have hdefinition := isDefinition_iff.2 ⟨hcomment, members, rfl⟩
    rw [← definitionOf_obj]
    exact ⟨⟨_, List.mem_filter.2 ⟨hin, hdefinition⟩, rfl⟩, rfl⟩

theorem exists_entries_of_ofJson {schema : Json} {reading : Reading}
    (h : Reading.ofJson schema = .ok reading) :
    ∃ entries, schema.member? "definitions" = some (.obj entries) ∧
      reading = .ofEntries entries := by
  obtain ⟨entries, hentries, heq⟩ | heq | heq := Reading.ofJson_cases schema <;> rw [heq] at h
  · exact ⟨entries, hentries, (Except.ok.inj h).symm⟩
  · cases h
  · cases h

end Table

end Schema

namespace Model

open Schema

variable {d : Document} {D : Definition} {name pointer : String}

/-- A reference stands for the model of a definition so called, wherever it stands. -/
structure LeadsTo (d : Document) (pointer name : String) (D : Definition) : Prop where
  mem : D ∈ d.definitions
  name_eq : D.name = name
  resolve_eq : ∀ o property path,
    resolve d o property (.reference pointer path) = .model (typeName name) (modelImport o name)
  unresolved_eq : ∀ path, unresolved d (.reference pointer path) = []
  model_name : ∀ o a, analyze d o D = .ok a → a.model.name = typeName name

/-- A reference stands for no type, and is noted wherever it stands. -/
structure LeadsNowhere (d : Document) (pointer : String) : Prop where
  resolve_eq : ∀ o property path, resolve d o property (.reference pointer path) = .dynamic
  unresolved_eq : ∀ path, unresolved d (.reference pointer path) = [⟨pointer, path⟩]

theorem leadsTo_of_resolve? (hpointer : pointer ∈ definitionPointers name)
    (h : d.resolve? pointer = some D) : LeadsTo d pointer name D := by
  obtain ⟨hmem, rfl⟩ := of_find?_eq_some (resolve?_of_mem d hpointer ▸ h)
  exact
    { mem := hmem
      name_eq := rfl
      resolve_eq := fun o property path => by rw [resolve, resolveReference, h]; rfl
      unresolved_eq := fun path => by rw [unresolved, h]; rfl
      model_name := fun o a ha => name_of_analyze ha }

theorem leadsNowhere_of_resolve? (h : d.resolve? pointer = none) : LeadsNowhere d pointer where
  resolve_eq o property path := by rw [resolve, resolveReference, h]; rfl
  unresolved_eq path := by rw [unresolved, h]; rfl

/-- Pointers into a table lead to the definition of the very name behind the table if the document
has one, and nowhere otherwise. A document that was read has it if the entry of that name is an
object and no comment. References that do not start with a number sign lead nowhere. -/
theorem definition_pointers_resolve_exactly :
    (∀ (d : Document) (name : String), ∀ pointer ∈ definitionPointers name,
      ((d.resolve? pointer).isSome ↔ ∃ D ∈ d.definitions, D.name = name) ∧
        (∀ D, d.resolve? pointer = some D → LeadsTo d pointer name D) ∧
        (d.resolve? pointer = none → LeadsNowhere d pointer)) ∧
      (∀ schema reading, Reading.ofJson schema = .ok reading →
        ∃ entries, schema.member? "definitions" = some (.obj entries) ∧
          ∀ name, ∀ pointer ∈ definitionPointers name,
            ((reading.document.resolve? pointer).isSome ↔
              isComment name = false ∧ ∃ members, (name, .obj members) ∈ entries) ∧
            ∀ D, reading.document.resolve? pointer = some D →
              ∃ members, (name, .obj members) ∈ entries ∧ D = .ofMembers name members) ∧
      ∀ (d : Document) (pointer : String), pointer.toList.head? ≠ some '#' →
        (target pointer).isExternal = true ∧ d.resolve? pointer = none ∧
          LeadsNowhere d pointer := by
  refine ⟨fun d name pointer hpointer => ⟨?_, fun D => leadsTo_of_resolve? hpointer,
    leadsNowhere_of_resolve?⟩, fun schema reading hreading => ?_, fun d pointer hhead => ?_⟩
  · rw [resolve?_of_mem d hpointer, isSome_find?_iff]
  · obtain ⟨entries, hentries, rfl⟩ := exists_entries_of_ofJson hreading
    refine ⟨entries, hentries, fun name pointer hpointer => ⟨?_, fun D hD => ?_⟩⟩
    · rw [resolve?_of_mem _ hpointer, isSome_find?_iff]
      constructor
      · rintro ⟨D, hD⟩
        obtain ⟨hcomment, members, hin, -⟩ := mem_definitions_ofEntries_iff.1 hD
        exact ⟨hcomment, members, hin⟩
      · rintro ⟨hcomment, members, hin⟩
        exact ⟨_, mem_definitions_ofEntries_iff.2 ⟨hcomment, members, hin, rfl⟩⟩
    · rw [resolve?_of_mem _ hpointer] at hD
      exact (mem_definitions_ofEntries_iff.1 (of_find?_eq_some hD)).2
  · have hnone := resolve?_of_head d hhead
    exact ⟨isExternal_of_head hhead, hnone, leadsNowhere_of_resolve? hnone⟩

/-- Entries with an empty name, a name with a slash and a number sign, the name of a comment, and no
object. -/
def oddEntries : List (String × Json) :=
  [("", .obj []), ("a/b#c", .obj []), ("_comment", .obj []), ("c", .null)]

/-- The name behind the table is not cut at its slash, entries left out are not found, and neither
is a definition whose name ends a reference to elsewhere. -/
theorem definition_pointers_resolve_exactly_odd :
    ∃ reading, Reading.ofJson (.obj [("definitions", .obj oddEntries)]) = .ok reading ∧
      LeadsTo reading.document "#/$defs/a/b#c" "a/b#c" ⟨"a/b#c", []⟩ ∧
      LeadsTo reading.document "#/definitions/" "" ⟨"", []⟩ ∧
      LeadsNowhere reading.document "#/definitions/_comment" ∧
      LeadsNowhere reading.document "#/$defs/c" ∧
      LeadsNowhere reading.document "other.json#/definitions/a/b#c" := by
  obtain ⟨hpointers, hread, hexternal⟩ := definition_pointers_resolve_exactly
  obtain ⟨entries, hentries, hkept⟩ :=
    hread (.obj [("definitions", .obj oddEntries)]) (.ofEntries oddEntries) rfl
  obtain rfl : oddEntries = entries := Json.obj.inj (Option.some.inj hentries)
  refine ⟨.ofEntries oddEntries, rfl, ?_, ?_, ?_, ?_, ?_⟩
  · exact (hpointers _ "a/b#c" _ (by decide)).2.1 _ rfl
  · exact (hpointers _ "" _ (by decide)).2.1 _ rfl
  · refine (hpointers _ "_comment" _ (by decide)).2.2 (Option.not_isSome_iff_eq_none.1 fun h => ?_)
    exact absurd ((hkept "_comment" _ (by decide)).1.1 h).1 (by decide)
  · exact (hpointers _ "c" _ (by decide)).2.2 rfl
  · exact (hexternal _ _ (by decide)).2.2

end Model

end DartModels
