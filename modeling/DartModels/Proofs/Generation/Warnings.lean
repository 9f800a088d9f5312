import DartModels.Proofs.Generation.Coverage
import DartModels.Proofs.Generation.Reports

/-! # What is noted

References that lead nowhere are noted once for every kept property that has one below its lists,
in order. A run that is stopped has noted those of the definitions before and of the one it was
stopped at, of which the files may be missing.
-/

namespace DartModels.Generation

open Dart Files Model Schema

variable {d : Document} {o : Options} {command : String} {root : Path}

section Notes

/-- The schemas of all kept properties with their paths in the document. -/
def keptPlaces (o : Options) (entries : List (String × Json)) : List (String × Json) :=
  entries.flatMap fun entry =>
    (keptMembers o entry).map fun p => (propertyPath entry.1 p.1, p.2)

/-- What is noted of several schemas. -/
def notesOn (d : Document) (places : List (String × Json)) : List Unresolved :=
  places.flatMap fun place => unresolved d (.ofJson place.1 place.2)

theorem picks_notesOn (d : Document) (places : List (String × Json)) :
    Picks (Dangles d) places (notesOn d places) :=
  Picks.of_forall fun place _ => unresolved_ofJson d place

theorem notesOn_append (places others : List (String × Json)) :
    notesOn d (places ++ others) = notesOn d places ++ notesOn d others :=
  List.flatMap_append

theorem keptPlaces_append (entries others : List (String × Json)) :
    keptPlaces o (entries ++ others) = keptPlaces o entries ++ keptPlaces o others :=
  List.flatMap_append

/-- What was noted of several definitions. -/
def notesOfEach (d : Document) (o : Options) (command : String) (definitions : List Definition) :
    List Unresolved :=
  definitions.flatMap fun A => (draftDefinition d o command A).unresolved

theorem notesOfEach_append (definitions others : List Definition) :
    notesOfEach d o command (definitions ++ others) =
      notesOfEach d o command definitions ++ notesOfEach d o command others :=
  List.flatMap_append

theorem notesOfEach_cons (A : Definition) (rest : List Definition) :
    notesOfEach d o command (A :: rest) =
      (draftDefinition d o command A).unresolved ++ notesOfEach d o command rest :=
  List.flatMap_cons

theorem notesOfEach_singleton (A : Definition) :
    notesOfEach d o command [A] = (draftDefinition d o command A).unresolved :=
  List.flatMap_singleton _ A

theorem unresolved_of_analyze {A : Definition} {a : Analysis} (h : analyze d o A = .ok a) :
    (draftDefinition d o command A).unresolved = a.unresolved := by
  rw [draftDefinition, h]
  dsimp only
  split <;> rfl

/-- What is noted of a definition is noted of the kept properties of its entry. -/
theorem notes_definitionOf {entry : String × Json} {a : Analysis}
    (h : analyze d o (definitionOf entry) = .ok a) :
    (draftDefinition d o command (definitionOf entry)).unresolved =
      notesOn d (keptPlaces o [entry]) := by
  rw [unresolved_of_analyze h]
  obtain ⟨kept, hkept, rfl⟩ := analysis_eq h
  obtain rfl := keptProperties_definitionOf hkept
  rw [Analysis.unresolved_ofProperties, keptPlaces, List.flatMap_singleton, notesOn,
    List.flatMap_map, List.flatMap_map]
  rfl

theorem notesOfEach_map {entries : List (String × Json)}
    (h : ∀ entry ∈ entries, (draftDefinition d o command (definitionOf entry)).fault? = none) :
    notesOfEach d o command (entries.map definitionOf) = notesOn d (keptPlaces o entries) := by
  induction entries with
  | nil => rfl
  | cons entry rest ih =>
    obtain ⟨hentry, hrest⟩ := List.forall_mem_cons.1 h
    obtain ⟨a, ha⟩ := exists_analysis_of_fault_none hentry
    rw [List.map_cons, notesOfEach_cons, notes_definitionOf ha, ih hrest, ← notesOn_append,
      ← keptPlaces_append, List.singleton_append]

theorem notes_draftEach {definitions : List Definition}
    (h : (draftEach d o command definitions).fault? = none) :
    (draftEach d o command definitions).unresolved = notesOfEach d o command definitions := by
  induction definitions with
  | nil => rfl
  | cons A rest ih =>
    obtain ⟨hA, hrest⟩ := Draft.fault_andThen h
    rw [notesOfEach_cons, draftEach, Draft.andThen, hA]
    exact congrArg _ (ih hrest)

theorem notes_build_of_kept {kept : List Definition}
    (hkept : keptDefinitions o d.definitions = .ok kept)
    (h : (build d o command).fault? = none) :
    (build d o command).unresolved = notesOfEach d o command kept := by
  rw [build_of_kept hkept] at h ⊢
  exact notes_draftEach h

/-- A build that is not stopped has noted all there is to note. -/
theorem notes_build {entries : List (String × Json)}
    (hd : d.definitions = (entries.filter isDefinition).map definitionOf)
    (h : (build d o command).fault? = none) :
    (build d o command).unresolved = notesOn d (keptPlaces o (keptEntries o entries)) := by
  obtain ⟨kept, hkept⟩ := keptDefinitions_of_build h
  rw [notes_build_of_kept hkept h]
  rw [build_of_kept hkept] at h
  obtain rfl := keptDefinitions_definitionOf (hd ▸ hkept)
  exact notesOfEach_map fun entry hentry => (draftEach_complete h (List.mem_map_of_mem hentry)).1

end Notes

section Runs

theorem unresolved_writeFiles (o : Options) (root : Path) (files : List GeneratedFile)
    (p : Progress) : (writeFiles o root files p).2.unresolved = p.unresolved := by
  induction files generalizing p with
  | nil => rfl
  | cons file rest ih =>
    rw [writeFiles]
    split
    · exact ih _
    · rfl

/-- How a run is stopped at a definition, after those before it have been written. -/
inductive StoppedAt (d : Document) (o : Options) (command : String) (root : Path) (disk : Disk)
    (before : List Definition) (A : Definition) : Stop → Disk → Prop

  | draft {fault : Options.Fault} {after : Disk} :
      Written o root disk (filesOfEach d o command before) after →
      (draftDefinition d o command A).fault? = some fault →
      StoppedAt d o command root disk before A (.options fault) after

  | files {middle after : Disk} {done : List GeneratedFile} {stop : Stop} :
      Written o root disk (filesOfEach d o command before) middle →
      (draftDefinition d o command A).fault? = none →
      Outcome o root middle (draftDefinition d o command A).files done (some stop) after →
      StoppedAt d o command root disk before A stop after

theorem StoppedAt.cons {disk middle after : Disk} {before : List Definition} {A B : Definition}
    {stop : Stop} (hw : Written o root disk (draftDefinition d o command A).files middle)
    (h : StoppedAt d o command root middle before B stop after) :
    StoppedAt d o command root disk (A :: before) B stop after := by
  cases h with
  | draft hbefore hfault => exact .draft (hw.append hbefore) hfault
  | files hbefore hnone ho => exact .files (hw.append hbefore) hnone ho

/-- A run has noted what there is to note of the definitions up to the one where it is stopped. -/
theorem generateEach_noted (d : Document) (o : Options) (command : String) (root : Path)
    (definitions : List Definition) (p : Progress) :
    let r := generateEach d o command root definitions p
    (r.1 = .ok () → r.2.unresolved = p.unresolved ++ notesOfEach d o command definitions) ∧
      ∀ stop, r.1 = .error stop → ∃ before A after, definitions = before ++ A :: after ∧
        (∀ B ∈ before, (draftDefinition d o command B).fault? = none) ∧
        r.2.unresolved = p.unresolved ++ notesOfEach d o command (before ++ [A]) ∧
        StoppedAt d o command root p.disk before A stop r.2.disk := by
  induction definitions generalizing p with
  | nil =>
    refine ⟨fun _ => (List.append_nil _).symm, fun stop h => ?_⟩
    cases h
  | cons A rest ih =>
    rw [generateEach]
    cases hfault : (draftDefinition d o command A).fault? with
    | some fault =>
      refine ⟨fun h => (by cases h), ?_⟩
      rintro stop ⟨⟩
      refine ⟨[], A, rest, rfl, List.forall_mem_nil _, ?_, .draft .nil hfault⟩
      rw [List.nil_append, notesOfEach_singleton]
      rfl
    | none =>
      obtain ⟨done, stop?, ho, -, hr⟩ := writeFiles_outcome o root
        (draftDefinition d o command A).files (p.note (draftDefinition d o command A))
      have hnotes := unresolved_writeFiles o root (draftDefinition d o command A).files
        (p.note (draftDefinition d o command A))
      dsimp only
      generalize writeFiles o root (draftDefinition d o command A).files
        (p.note (draftDefinition d o command A)) = r at ho hnotes hr
      obtain ⟨result, q⟩ := r
      dsimp only at ho hnotes hr
      subst hr
      -- the notes on a definition are taken before its first file is written
      have hone : q.unresolved = p.unresolved ++ (draftDefinition d o command A).unresolved :=
        hnotes
      cases ho with
      | complete hw =>
        obtain ⟨hok, hstopped⟩ := ih q
        refine ⟨fun h => ?_, fun stop h => ?_⟩
        · rw [notesOfEach_cons, ← List.append_assoc, ← hone]
          exact hok h
        · obtain ⟨before, B, after, rfl, hbefore, hmore, hat⟩ := hstopped stop h
          refine ⟨A :: before, B, after, rfl, List.forall_mem_cons.2 ⟨hfault, hbefore⟩, ?_,
            hat.cons hw⟩
          rw [List.cons_append, notesOfEach_cons, ← List.append_assoc, ← hone]
          exact hmore
      | stopped hfiles hw hf =>
        refine ⟨fun h => (by cases h), ?_⟩
        rintro stop ⟨⟩
        refine ⟨[], A, rest, rfl, List.forall_mem_nil _, ?_,
          .files .nil hfault (.stopped hfiles hw hf)⟩
        rw [List.nil_append, notesOfEach_singleton]
        exact hone

theorem generate_noted {kept : List Definition}
    (hkept : keptDefinitions o d.definitions = .ok kept) (command : String) (root : Path)
    (disk : Disk) :
    let r := generate d o command root disk
    (r.1 = .ok () → r.2.unresolved = notesOfEach d o command kept) ∧
      ∀ stop, r.1 = .error stop → ∃ before A after, kept = before ++ A :: after ∧
        (∀ B ∈ before, (draftDefinition d o command B).fault? = none) ∧
        r.2.unresolved = notesOfEach d o command (before ++ [A]) ∧
        StoppedAt d o command root disk before A stop r.2.disk := by
  have h := generateEach_noted d o command root kept (.start disk)
  rw [generate, hkept]
  dsimp only at h ⊢
  generalize generateEach d o command root kept (.start disk) = r at h ⊢
  obtain ⟨result, p⟩ := r
  cases result <;> exact h

end Runs

/-- What is told when a run is stopped: the notes on the definitions up to the one whose files could
not all be written. -/
structure ToldUpTo (d : Document) (o : Options) (command : String) (root : Path) (disk : Disk)
    (before : List (String × Json)) (entry : String × Json) (warnings : List String)
    (after : Disk) : Prop where
  noted : ∃ notes, Picks (Dangles d) (keptPlaces o (before ++ [entry])) notes ∧
    warnings = notes.map Unresolved.message
  stopped : ∃ middle done stop,
    Written o root disk (filesOfEach d o command (before.map definitionOf)) middle ∧
    Outcome o root middle (draftDefinition d o command (definitionOf entry)).files done (some stop)
      after

theorem toldUpTo_of_stoppedAt {disk after : Disk} {before : List (String × Json)}
    {entry : String × Json} {stop : Stop}
    (hbefore : ∀ B ∈ before.map definitionOf, (draftDefinition d o command B).fault? = none)
    (h : StoppedAt d o command root disk (before.map definitionOf) (definitionOf entry) stop after)
    (hstop : ∀ fault, stop ≠ .options fault) :
    ToldUpTo d o command root disk before entry
      ((notesOfEach d o command (before.map definitionOf ++ [definitionOf entry])).map
        Unresolved.message) after := by
  cases h with
  | draft _ hfault => exact absurd rfl (hstop _)
  | files hw hnone ho =>
    refine ⟨⟨_, ?_, rfl⟩, _, _, _, hw, ho⟩
    have hall : ∀ other ∈ before ++ [entry],
        (draftDefinition d o command (definitionOf other)).fault? = none := by
      intro other hother
      rcases List.mem_append.1 hother with hother | hother
      · exact hbefore _ (List.mem_map_of_mem hother)
      · rwa [List.mem_singleton.1 hother]
    have hnotes := notesOfEach_map hall
    rw [List.map_append, List.map_singleton] at hnotes
    rw [hnotes]
    exact picks_notesOn d _

section Reported

variable {disk : Disk} {report : Report}

/-- A run that succeeds tells all notes of the build. -/
theorem warnings_of_success (h : Told (generate d o command root disk).2
      (generate d o command root disk).1 (.ok report)) (hnone : report.error? = none) :
    (build d o command).fault? = none ∧
      report.warnings = (build d o command).unresolved.map Unresolved.message := by
  have hok := h.error?_eq_none_iff.1 hnone
  obtain ⟨hbuilt, -⟩ := written_of_generate_ok hok
  obtain ⟨kept, hkept⟩ := keptDefinitions_of_build hbuilt
  obtain ⟨hdone, -⟩ := generate_noted hkept command root disk
  refine ⟨hbuilt, ?_⟩
  rw [h.warnings, hdone hok, notes_build_of_kept hkept hbuilt]

/-- A run that fails with a report tells the first notes of the build. -/
theorem toldUpTo_of_failure {entries : List (String × Json)}
    (hd : d.definitions = (entries.filter isDefinition).map definitionOf)
    (h : Told (generate d o command root disk).2 (generate d o command root disk).1 (.ok report))
    (herror : report.error? ≠ none) :
    ∃ before entry after, keptEntries o entries = before ++ entry :: after ∧
      ((build d o command).fault? = none →
        report.warnings <+: (build d o command).unresolved.map Unresolved.message) ∧
      ToldUpTo d o command root disk before entry report.warnings
        (generate d o command root disk).2.disk := by
  cases hr : (generate d o command root disk).1 with
  | ok => exact absurd (h.error?_eq_none_iff.2 hr) herror
  | error stop =>
    rw [hr] at h
    have hoptions : ∀ fault, stop ≠ .options fault := by
      rintro fault rfl
      cases h
    cases hkept : keptDefinitions o d.definitions with
    | error fault =>
      rw [generate, hkept] at hr
      exact absurd (Except.error.inj hr).symm (hoptions fault)
    | ok kept =>
      obtain ⟨-, hstopped⟩ := generate_noted hkept command root disk
      obtain ⟨first, A, last, hsplit, hbefore, hnotes, hat⟩ := hstopped stop hr
      obtain rfl := keptDefinitions_definitionOf (hd ▸ hkept)
      obtain ⟨before, others, hentries, rfl, hothers⟩ := List.map_eq_append_iff.1 hsplit
      obtain ⟨entry, after, rfl, rfl, rfl⟩ := List.map_eq_cons_iff.1 hothers
      rw [h.warnings, hnotes]
      refine ⟨before, entry, after, hentries, fun hnone => ?_,
        toldUpTo_of_stoppedAt hbefore hat hoptions⟩
      rw [notes_build_of_kept hkept hnone, hsplit, List.append_cons _ _ (after.map definitionOf),
        notesOfEach_append _ (after.map _), List.map_append]
      exact List.prefix_append _ _

end Reported

/-- If no option stops it, a build notes, in order, one by one, the kept properties with a reference
below lists that leads nowhere, and no others; the note names the pointer and the path, and the
field has the dynamic type below the lists and no import. A run that succeeds tells exactly these
notes. A run that fails to write tells those of the definitions up to the one that it failed at. -/
theorem unresolved_reported (entries : List (String × Json)) (o : Options) (command : String) :
    let d := (Reading.ofEntries entries).document
    let draft := build d o command
    (o.WellTyped → draft.fault? = none) ∧
      (draft.fault? = none →
        Picks (Dangles d) (keptPlaces o (keptEntries o entries)) draft.unresolved) ∧
      (∀ place u, Dangles d place u → ∀ name,
        let field := Field.ofProperty d o ⟨name, .ofJson place.1 place.2⟩
        field.imports = [] ∧ ∃ depth, u.path = Node.itemsPath^[depth] place.1 ∧
          field.type = TypeRef.list^[depth] .dynamic) ∧
      ∀ (input : Input) (root : Path) (t : Tree) (report : Report),
        input.read = .ok (.ofEntries entries) →
        (run input o command root (.ofTree t)).outcome = .ok report →
        (report.error? = none →
          draft.fault? = none ∧ report.warnings = draft.unresolved.map Unresolved.message) ∧
        (report.error? ≠ none → ∃ before entry after,
          keptEntries o entries = before ++ entry :: after ∧
          (draft.fault? = none →
            report.warnings <+: draft.unresolved.map Unresolved.message) ∧
          ToldUpTo d o command root (.ofTree t) before entry report.warnings
            (run input o command root (.ofTree t)).disk) := by
  intro d draft
  have hd := definitions_ofEntries entries
  refine ⟨fun ho => fault_build ho d command, fun hnone => ?_, fun place u h name => h.field o name,
    fun input root t report hread hreport => ?_⟩
  · rw [notes_build hd hnone]
    exact picks_notesOn d _
  · obtain ⟨hdisk, htold⟩ := run_told hread o command root (.ofTree t)
    rw [hreport] at htold
    rw [hdisk]
    exact ⟨warnings_of_success htold, toldUpTo_of_failure hd htold⟩

section Ownerless

/-- An item that lists owners, who are not defined. -/
def ownerlessEntries : List (String × Json) :=
  [("Item", .obj [("properties", .obj [("owners", .obj [("type", .str "array"),
    ("items", .obj [("$ref", .str "#/definitions/Owner")])])])])]

def ownerlessInput : Input :=
  .text ("\x7b\"definitions\":\x7b\"Item\":\x7b\"properties\":\x7b\"owners\":" ++
    "\x7b\"type\":\"array\",\"items\":\x7b\"$ref\":\"#/definitions/Owner\"\x7d\x7d\x7d\x7d\x7d\x7d")

/-- A reading that holds that item alone and left nothing out. -/
def isOwnerless : Except Fault Reading → Bool
  | .ok ⟨⟨[⟨name, [⟨property, .list (some (.reference pointer items)) path⟩]⟩]⟩, []⟩ =>
    name = "Item" ∧ property = "owners" ∧ pointer = "#/definitions/Owner" ∧
      items = "#/definitions/Item/properties/owners/items" ∧
      path = "#/definitions/Item/properties/owners"
  | _ => false

theorem read_ownerlessInput : ownerlessInput.read = .ok (.ofEntries ownerlessEntries) := by
  have h : isOwnerless ownerlessInput.read = true := by decide +kernel
  unfold isOwnerless at h
  split at h
  · next hread =>
    obtain ⟨rfl, rfl, rfl, rfl, rfl⟩ := of_decide_eq_true h
    exact hread
  · cases h

def ownerless : Document :=
  (Reading.ofEntries ownerlessEntries).document

def ownerlessItem : Definition :=
  ⟨"Item", [⟨"owners", .list (some (.reference "#/definitions/Owner"
    "#/definitions/Item/properties/owners/items")) "#/definitions/Item/properties/owners"⟩]⟩

def ownerlessAnalysis : Analysis :=
  .ofProperties ownerless {} ownerlessItem.name ownerlessItem.properties

theorem analyze_ownerlessItem : analyze ownerless {} ownerlessItem = .ok ownerlessAnalysis := by rfl

theorem files_ownerless : (build ownerless {} programName).files =
    [modelFileOf {} programName ownerlessAnalysis] := by rfl

theorem checkStructure_ownerless :
    checkStructure (modelFileOf {} programName ownerlessAnalysis).content.toList = .ok () := by
  have hcommand : '\n' ∉ programName.toList := by decide
  exact checkStructure_modelFile analyze_ownerlessItem hcommand
    fun _ hpath => absurd hpath List.not_mem_nil

theorem generate_ownerless :
    (generate ownerless {} programName ⟨1, ["out"]⟩ (.ofTree ⟨[]⟩)).1 = .ok () := by
  have hw : Written {} ⟨1, ["out"]⟩ (.ofTree ⟨[]⟩)
      [modelFileOf {} programName ownerlessAnalysis] _ :=
    .of_checked checkStructure_ownerless (by decide +kernel) .nil
  exact generate_ok_of_written rfl (files_ownerless ▸ hw)

/-- A tree with a file where the folder should be. -/
def blocked : Tree :=
  ⟨[(["out"], .file .empty)]⟩

theorem generate_ownerless_blocked :
    ∃ path why, (generate ownerless {} programName ⟨1, ["out"]⟩ (.ofTree blocked)).1 =
      .error (.write path why) := by
  have hf : (write (Path.join ⟨1, ["out"]⟩ (modelFileOf {} programName ownerlessAnalysis).path)
      (modelFileOf {} programName ownerlessAnalysis).content true (.ofTree blocked)).1 =
        .error (.access (.refused .notDirectory)) := by
    rw [write, writeBy, if_pos rfl, checkStructure_ownerless]
    decide +kernel
  obtain ⟨done, stop?, ho, -, hr⟩ :=
    generate_outcome ownerless {} programName ⟨1, ["out"]⟩ (.ofTree blocked)
  rw [files_ownerless] at ho
  obtain ⟨-, rfl⟩ := ho.stopped_at_first hf
  exact ⟨_, _, hr⟩

theorem told_ownerless (t : Tree) :
    Told (generate ownerless {} programName ⟨1, ["out"]⟩ (.ofTree t)).2
      (generate ownerless {} programName ⟨1, ["out"]⟩ (.ofTree t)).1
      (run ownerlessInput {} programName ⟨1, ["out"]⟩ (.ofTree t)).outcome :=
  (run_told read_ownerlessInput {} programName ⟨1, ["out"]⟩ (.ofTree t)).2

/-- The note is told once, whether the file can be written or not. -/
theorem unresolved_reported_ownerless :
    let note := "Unresolved $ref '#/definitions/Owner' at " ++
      "#/definitions/Item/properties/owners/items: field degrades to dynamic"
    let told := fun t => (run ownerlessInput {} programName ⟨1, ["out"]⟩ (.ofTree t)).outcome
    (∃ report, told ⟨[]⟩ = .ok report ∧ report.error? = none ∧ report.warnings = [note]) ∧
      ∃ report, told blocked = .ok report ∧ report.error? ≠ none ∧ report.warnings <+: [note] ∧
        ∃ before entry after disk, keptEntries {} ownerlessEntries = before ++ entry :: after ∧
          ToldUpTo ownerless {} programName ⟨1, ["out"]⟩ (.ofTree blocked) before entry
            report.warnings disk := by
  intro note told
  obtain ⟨-, -, -, hruns⟩ := unresolved_reported ownerlessEntries {} programName
  have hnotes : (build ownerless {} programName).unresolved.map Unresolved.message = [note] := by
    rfl
  constructor
  · have htold := told_ownerless ⟨[]⟩
    rw [generate_ownerless] at htold
    obtain ⟨report, hreport, hnone⟩ := htold.exists_of_ok
    obtain ⟨-, hwarnings⟩ := (hruns _ _ _ report read_ownerlessInput hreport).1 hnone
    exact ⟨report, hreport, hnone, hwarnings.trans hnotes⟩
  · have htold := told_ownerless blocked
    obtain ⟨path, why, hstop⟩ := generate_ownerless_blocked
    rw [hstop] at htold
    obtain ⟨report, hreport, hsome⟩ := htold.exists_of_write
    have herror : report.error? ≠ none := hsome ▸ nofun
    obtain ⟨before, entry, after, hentries, hwarnings, htoldUpTo⟩ :=
      (hruns _ _ _ report read_ownerlessInput hreport).2 herror
    have hprefix : report.warnings <+: [note] := hnotes ▸ hwarnings rfl
    exact ⟨report, hreport, herror, hprefix, before, entry, after, _, hentries, htoldUpTo⟩

end Ownerless

end DartModels.Generation
