import DartModels.Options
import Mathlib.Data.List.Basic

/-! # Entries of an options file

The entries that name a documented option are overlaid on the defaults, and entries that mean
nothing change nothing. Four names that a live table of options answers to in its own right do mean
something: two cannot be set, one takes a whole table, and one hides the list of options.
-/

namespace DartModels.Options

variable {o o' : Options} {table entries rest : List (String × Json)} {name : String} {value : Json}

/-- The documented options with their defaults. -/
def documented : List (String × Json) := [
  ("ignore_classes", .arr []),
  ("global_ignore_fields", .arr []),
  ("add_generation_comment", .bool true),
  ("enums_dir_name", .str "enums"),
  ("file_extension", .str "dart"),
  ("deep_collection_equality", .bool true),
  ("enum_wire_values", .bool false),
  ("validate_before_write", .bool true)]

def optionNames : List String :=
  documented.map (·.1)

/-- The names that mean something without being options. -/
def ownNames : List String :=
  ["to_dict", "__dict__", "__class__", "__weakref__"]

/-- A table in which the entries have replaced the values of the names that it has; of several
entries of one name the last one counts. -/
def overlay (table entries : List (String × Json)) : List (String × Json) :=
  table.map fun e => (e.1, (entries.reverse.lookup e.1).getD e.2)

theorem overlay_nil (table : List (String × Json)) : overlay table [] = table := by
  simp [overlay]

theorem overlay_cons (table rest : List (String × Json)) (e : String × Json) :
    overlay table (e :: rest) = overlay (overlay table [e]) rest := by
  rw [overlay, overlay, overlay, List.map_map]
  refine List.map_congr_left fun t _ => ?_
  rw [List.reverse_cons, List.lookup_append, Function.comp_apply]
  cases rest.reverse.lookup t.1 <;> rfl

theorem overlay_of_notMem (h : name ∉ table.map (·.1)) (value : Json) :
    overlay table [(name, value)] = table := by
  refine (List.map_congr_left fun e he => ?_).trans (List.map_id table)
  have hne : (e.1 == name) = false := by
    rw [beq_eq_false_iff_ne]
    rintro rfl
    exact h (List.mem_map_of_mem he)
  rw [List.reverse_singleton, List.lookup_cons, hne]
  rfl

section Listing

theorem toJson_eq_ok_iff {j : Json} : o.toJson = .ok j ↔ o.isListable = true ∧
    ∃ classes fields, o.ignoreClasses = some classes ∧ o.ignoreFields = some fields ∧
      j = .obj [
        ("ignore_classes", classes),
        ("global_ignore_fields", fields),
        ("add_generation_comment", o.generationComment),
        ("enums_dir_name", o.enumsFolder),
        ("file_extension", o.fileExtension),
        ("deep_collection_equality", o.deepEquality),
        ("enum_wire_values", o.wireValues),
        ("validate_before_write", o.validate)] := by
  unfold toJson
  cases o.isListable with
  | false => simp
  | true =>
    cases o.ignoreClasses with
    | none => simp [require, bind, Except.bind]
    | some classes =>
      cases o.ignoreFields with
      | none => simp [require, bind, Except.bind]
      | some fields => simp [require, bind, Except.bind, pure, Except.pure, eq_comm]

theorem names_of_toJson (h : o.toJson = .ok (.obj table)) : table.map (·.1) = optionNames := by
  obtain ⟨-, classes, fields, -, -, heq⟩ := toJson_eq_ok_iff.1 h
  cases heq
  rfl

/-- Setting an option replaces its value in the list and leaves the others. -/
theorem exists_set_option (h : o.toJson = .ok (.obj table)) (hname : name ∈ optionNames)
    (value : Json) :
    ∃ o', o.set name value = .ok o' ∧ o'.toJson = .ok (.obj (overlay table [(name, value)])) := by
  obtain ⟨hlistable, classes, fields, hclasses, hfields, heq⟩ := toJson_eq_ok_iff.1 h
  cases heq
  simp only [optionNames, documented, List.map_cons, List.map_nil, List.mem_cons,
    List.not_mem_nil, or_false] at hname
  rcases hname with rfl | rfl | rfl | rfl | rfl | rfl | rfl | rfl
  · refine ⟨_, rfl, toJson_eq_ok_iff.2 ⟨hlistable, value, fields, ?_, hfields, rfl⟩⟩
    rw [hclasses, Option.map_some]
  · refine ⟨_, rfl, toJson_eq_ok_iff.2 ⟨hlistable, classes, value, hclasses, ?_, rfl⟩⟩
    rw [hfields, Option.map_some]
  all_goals
    exact ⟨_, rfl, toJson_eq_ok_iff.2 ⟨hlistable, classes, fields, hclasses, hfields, rfl⟩⟩

/-- An entry that is no option and has none of the four names is passed over. -/
theorem set_of_notMem (o : Options) (h : name ∉ optionNames ++ ownNames) (value : Json) :
    o.set name value = .ok o := by
  unfold set
  split
  case h_13 => rfl
  all_goals exact absurd (by decide) h

theorem exists_set (h : o.toJson = .ok (.obj table)) (hname : name ∉ ownNames) (value : Json) :
    ∃ o', o.set name value = .ok o' ∧ o'.toJson = .ok (.obj (overlay table [(name, value)])) := by
  by_cases hoption : name ∈ optionNames
  · exact exists_set_option h hoption value
  · refine ⟨o, set_of_notMem o (by simp [hoption, hname]) value, ?_⟩
    rwa [overlay_of_notMem (names_of_toJson h ▸ hoption)]

/-- Reading entries overlays them on what the options were. -/
theorem exists_setAll (h : o.toJson = .ok (.obj table)) (hnames : ∀ e ∈ entries, e.1 ∉ ownNames) :
    ∃ o', o.setAll entries = .ok o' ∧ o'.toJson = .ok (.obj (overlay table entries)) := by
  induction entries generalizing o table with
  | nil => exact ⟨o, rfl, by rwa [overlay_nil]⟩
  | cons e rest ih =>
    obtain ⟨hname, hrest⟩ := List.forall_mem_cons.1 hnames
    obtain ⟨middle, hset, hmiddle⟩ := exists_set h hname e.2
    obtain ⟨o', hall, ho'⟩ := ih hmiddle hrest
    refine ⟨o', ?_, by rwa [overlay_cons]⟩
    rw [setAll, hset]
    exact hall

end Listing

/-- Entries that mean nothing can be left out. -/
theorem setAll_filter (o : Options) (entries : List (String × Json)) :
    o.setAll (entries.filter fun e => e.1 ∈ optionNames ++ ownNames) = o.setAll entries := by
  induction entries generalizing o with
  | nil => rfl
  | cons e rest ih =>
    rw [List.filter_cons]
    split
    · rw [setAll, setAll]
      cases o.set e.1 e.2 with
      | ok o' => exact ih o'
      | error => rfl
    · next hname =>
      rw [setAll, set_of_notMem o (by simpa using hname), ih]

section OwnNames

/-- An entry that can be set: two names are refused, and a whole table has to be an object. -/
structure IsSettable (name : String) (value : Json) : Prop where
  not_class : name ≠ "__class__"
  not_weakref : name ≠ "__weakref__"
  table : name = "__dict__" → ∃ members, value = .obj members

theorem exists_set_of_notMem (o : Options) (h : name ∉ ownNames) (value : Json) :
    ∃ o', o.set name value = .ok o' := by
  unfold set
  split
  case h_9 | h_10 | h_11 | h_12 => exact absurd (by decide) h
  all_goals exact ⟨_, rfl⟩

theorem exists_set_iff (o : Options) (name : String) (value : Json) :
    (∃ o', o.set name value = .ok o') ↔ IsSettable name value := by
  by_cases hown : name ∈ ownNames
  · simp only [ownNames, List.mem_cons, List.not_mem_nil, or_false] at hown
    rcases hown with rfl | rfl | rfl | rfl
    · exact iff_of_true ⟨_, rfl⟩ ⟨by decide, by decide, fun h => absurd h (by decide)⟩
    · cases value with
      | obj members => exact iff_of_true ⟨_, rfl⟩ ⟨by decide, by decide, fun _ => ⟨members, rfl⟩⟩
      | null | bool | int | float | str | arr =>
        refine iff_of_false nofun fun h => ?_
        obtain ⟨members, hvalue⟩ := h.table rfl
        cases hvalue
    · exact iff_of_false nofun fun h => h.not_class rfl
    · exact iff_of_false nofun fun h => h.not_weakref rfl
  · refine iff_of_true (exists_set_of_notMem o hown value) ⟨?_, ?_, ?_⟩
    all_goals rintro rfl
    all_goals exact absurd (by decide) hown

theorem exists_setAll_iff (o : Options) (entries : List (String × Json)) :
    (∃ o', o.setAll entries = .ok o') ↔ ∀ e ∈ entries, IsSettable e.1 e.2 := by
  induction entries generalizing o with
  | nil => exact iff_of_true ⟨o, rfl⟩ (List.forall_mem_nil _)
  | cons e rest ih =>
    rw [List.forall_mem_cons, ← exists_set_iff o, setAll]
    cases o.set e.1 e.2 with
    | ok middle => simpa using ih middle
    | error fault => simp

/-- Only an entry for the list itself hides it, and a whole table brings its own answer. -/
theorem isListable_of_set (h : o.set name value = .ok o') (hname : name ≠ "__dict__") :
    o'.isListable = true ↔ o.isListable = true ∧ name ≠ "to_dict" := by
  unfold set at h
  split at h
  case h_9 =>
    obtain rfl := Except.ok.inj h
    simp
  case h_10 => exact absurd rfl hname
  case h_11 | h_12 => cases h
  case h_13 hother _ _ _ =>
    obtain rfl := Except.ok.inj h
    exact (and_iff_left hother).symm
  all_goals
    obtain rfl := Except.ok.inj h
    exact (and_iff_left (by decide)).symm

theorem isListable_of_setAll (h : o.setAll entries = .ok o')
    (hnames : ∀ e ∈ entries, e.1 ≠ "__dict__") :
    o'.isListable = true ↔ o.isListable = true ∧ ∀ e ∈ entries, e.1 ≠ "to_dict" := by
  induction entries generalizing o with
  | nil =>
    obtain rfl := Except.ok.inj h
    simp
  | cons e rest ih =>
    obtain ⟨hname, hrest⟩ := List.forall_mem_cons.1 hnames
    rw [setAll] at h
    split at h
    · next middle hset =>
      rw [ih h hrest, isListable_of_set hset hname, List.forall_mem_cons, and_assoc]
    · cases h

theorem toJson_of_not_isListable (h : ¬ o.isListable = true) : o.toJson = .error .wrongType := by
  rw [toJson, if_pos (by simpa using h)]

/-- What a table is given as a whole, it takes instead of all that was set before. -/
theorem setAll_table {before after members : List (String × Json)}
    (h : o.setAll (before ++ ("__dict__", .obj members) :: after) = .ok o') :
    (ofTable members).setAll after = .ok o' := by
  induction before generalizing o with
  | nil => exact h
  | cons e rest ih =>
    rw [List.cons_append, setAll] at h
    split at h
    · exact ih h
    · cases h

end OwnNames

/-- Entries that are no options change nothing, and the options are listed as their defaults with
the entries overlaid, unless an entry has one of the four names: then the reading fails, or the
list is hidden, or a whole table replaces what was set before. -/
theorem unknown_entries_ignored (entries : List (String × Json)) :
    ofJson (.obj (entries.filter fun e => e.1 ∈ optionNames ++ ownNames)) = ofJson (.obj entries) ∧
    ((∀ e ∈ entries, e.1 ∉ ownNames) → ∃ o, ofJson (.obj entries) = .ok o ∧
      o.toJson = .ok (.obj (overlay documented entries))) ∧
    ((∃ o, ofJson (.obj entries) = .ok o) ↔ ∀ e ∈ entries, IsSettable e.1 e.2) ∧
    ∀ o, ofJson (.obj entries) = .ok o →
      ((∀ e ∈ entries, e.1 ≠ "__dict__") → (∃ e ∈ entries, e.1 = "to_dict") →
        o.toJson = .error .wrongType) ∧
      ∀ before members after, entries = before ++ ("__dict__", .obj members) :: after →
        (ofTable members).setAll after = .ok o := by
  refine ⟨setAll_filter {} entries, exists_setAll rfl, exists_setAll_iff {} entries,
    fun o ho => ⟨fun htable hhides => toJson_of_not_isListable ?_, ?_⟩⟩
  · rw [isListable_of_setAll ho htable]
    obtain ⟨e, he, hname⟩ := hhides
    exact fun hlistable => hlistable.2 e he hname
  · rintro before members after rfl
    exact setAll_table ho

/-- Two options among entries that mean nothing, some of them attributes of every object. -/
def motley : List (String × Json) :=
  [("language", .str "cs"), ("enum_wire_values", .bool true), ("from_dict", .int 4),
    ("file_extension", .str "g.dart"), ("__init__", .null)]

/-- A table that is replaced and then hidden. -/
def replaced : List (String × Json) :=
  [("validate_before_write", .null), ("__dict__", .obj [("file_extension", .str "js")]),
    ("to_dict", .null)]

theorem unknown_entries_ignored_motley :
    ((∀ e ∈ motley, e.1 ∉ ownNames) ∧ ∃ o, ofJson (.obj motley) = .ok o ∧
      o.toJson = .ok (.obj (overlay documented
        [("file_extension", .str "g.dart"), ("enum_wire_values", .bool true)]))) ∧
    (∃ o, ofJson (.obj [("to_dict", .int 1)]) = .ok o ∧ o.toJson = .error .wrongType) ∧
    ∃ o, ofJson (.obj replaced) = .ok o ∧
      (ofTable [("file_extension", .str "js")]).setAll [("to_dict", .null)] = .ok o := by
  have hmotley : ∀ e ∈ motley, e.1 ∉ ownNames := by decide
  refine ⟨⟨hmotley, (unknown_entries_ignored motley).2.1 hmotley⟩, ?_, ?_⟩
  · obtain ⟨-, -, -, hread⟩ := unknown_entries_ignored [("to_dict", .int 1)]
    exact ⟨_, rfl, (hread _ rfl).1 (by decide) ⟨_, List.mem_cons_self, rfl⟩⟩
  · obtain ⟨-, -, -, hread⟩ := unknown_entries_ignored replaced
    exact ⟨_, rfl, (hread _ rfl).2 [_] _ _ rfl⟩

/-- An entry for the list of options hides it, and one for their kind is refused. -/
theorem own_names_not_ignored :
    (∃ o, ofJson (.obj [("to_dict", .int 1)]) = .ok o ∧
      o.toJson ≠ .ok (.obj (overlay documented [("to_dict", .int 1)]))) ∧
    ¬ ∃ o, ofJson (.obj [("__class__", .str "none")]) = .ok o :=
  ⟨⟨_, rfl, nofun⟩, nofun⟩

end DartModels.Options
