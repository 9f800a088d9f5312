import DartModels.Proofs.Dart.StructuralCheck
import DartModels.Proofs.Generation.Writes

/-! # What reports list

A report lists the paths whose write was completed, whatever stopped the run, with one exception:
after a failed structural check it lists nothing.
-/

namespace DartModels.Generation

open Dart Files Model Schema

/-- The files that are built for an input; none if it cannot be read. -/
def built (input : Input) (o : Options) (command : String) : List GeneratedFile :=
  match input.read with
  | .ok reading => (build reading.document o command).files
  | .error _ => []

theorem eraseDups_eq_nil_iff {α : Type} [BEq α] [LawfulBEq α] {l : List α} :
    l.eraseDups = [] ↔ l = [] := by
  cases l <;> simp [List.eraseDups_cons]

/-- What is reported of the files that are done. -/
def listed (root : Path) (done : List GeneratedFile) : Option Stop → List Path
  | some (.code _) => []
  | _ => (done.map fun file => root.join file.path).eraseDups

/-- What a caller is told of a generation. -/
inductive Told (p : Progress) : Except Stop Unit → Except Crash Report → Prop

  | done : Told p (.ok ()) (.ok ⟨p.written, none, p.unresolved.map Unresolved.message⟩)

  | write {path : Path} {why : Refusal} : Told p (.error (.write path why))
      (.ok ⟨p.written, some (writeMessage path why), p.unresolved.map Unresolved.message⟩)

  | code {fault : StructureFault} : Told p (.error (.code fault))
      (.ok ⟨[], some fault.message, p.unresolved.map Unresolved.message⟩)

  | options {fault : Options.Fault} : Told p (.error (.options fault)) (.error (.options fault))

  | nulInPath : Told p (.error .nulInPath) (.error .nulInPath)

namespace Told

variable {p : Progress} {result : Except Stop Unit} {report : Report}

theorem warnings (h : Told p result (.ok report)) :
    report.warnings = p.unresolved.map Unresolved.message := by
  cases h <;> rfl

theorem exists_of_ok {outcome : Except Crash Report} (h : Told p (.ok ()) outcome) :
    ∃ report, outcome = .ok report ∧ report.error? = none := by
  cases h with
  | done => exact ⟨_, rfl, rfl⟩

theorem exists_of_write {path : Path} {why : Refusal} {outcome : Except Crash Report}
    (h : Told p (.error (.write path why)) outcome) :
    ∃ report, outcome = .ok report ∧ report.error? = some (writeMessage path why) := by
  cases h with
  | write => exact ⟨_, rfl, rfl⟩

theorem eq_of_nulInPath {outcome : Except Crash Report} (h : Told p (.error .nulInPath) outcome) :
    outcome = .error .nulInPath := by
  cases h
  rfl

theorem error?_eq_none_iff (h : Told p result (.ok report)) :
    report.error? = none ↔ result = .ok () := by
  cases h with
  | done => exact iff_of_true rfl rfl
  | write | code => exact iff_of_false nofun nofun

end Told

/-- Once its document is read, a run is the generation from it, as it is told. -/
theorem run_told {input : Input} {reading : Reading} (hread : input.read = .ok reading)
    (o : Options) (command : String) (root : Path) (disk : Disk) :
    let r := generate reading.document o command root disk
    (run input o command root disk).disk = r.2.disk ∧
      Told r.2 r.1 (run input o command root disk).outcome := by
  rw [run, hread]
  dsimp only
  cases (generate reading.document o command root disk).1 with
  | ok => exact ⟨rfl, .done⟩
  | error stop =>
    cases stop with
    | options fault => exact ⟨rfl, .options⟩
    | code fault => exact ⟨rfl, .code⟩
    | write path why => exact ⟨rfl, .write⟩
    | nulInPath => exact ⟨rfl, .nulInPath⟩

theorem run_outcome (input : Input) (o : Options) (command : String) (root : Path) (disk : Disk)
    {report : Report} (h : (run input o command root disk).outcome = .ok report) :
    ∃ done stop?, Outcome o root disk (built input o command) done stop?
        (run input o command root disk).disk ∧ report.written = listed root done stop? := by
  cases hread : input.read with
  | error fault =>
    rw [run, hread] at h ⊢
    rw [built, hread]
    refine ⟨[], none, ?_, ?_⟩
    · cases fault <;> exact .complete .nil
    · cases fault <;> cases h <;> rfl
  | ok reading =>
    rw [built, hread]
    dsimp only
    obtain ⟨done, stop?, ho, hwritten, hr⟩ :=
      generate_outcome reading.document o command root disk
    obtain ⟨hdisk, htold⟩ := run_told hread o command root disk
    have hpaths := hwritten.trans (addPaths_eraseDups [])
    rw [h, hr] at htold
    rw [hdisk]
    refine ⟨done, stop?, ho, ?_⟩
    cases stop? with
    | none =>
      cases hfault : (build reading.document o command).fault? with
      | none =>
        rw [hfault] at htold
        cases htold
        exact hpaths
      | some fault =>
        rw [hfault] at htold
        cases htold
    | some stop =>
      cases htold with
      | write => exact hpaths
      | code => rfl

/-- A report lists exactly the paths whose write was completed unless the run was stopped by the
structural check after its first write; then it lists none of them. -/
theorem reported_written_iff (input : Input) (o : Options) (command : String) (root : Path)
    (t : Tree) {report : Report}
    (h : (run input o command root (.ofTree t)).outcome = .ok report) :
    ∃ done stop?, Outcome o root (.ofTree t) (built input o command) done stop?
        (run input o command root (.ofTree t)).disk ∧
      (report.written = (done.map fun file => root.join file.path).eraseDups ↔
        ((∃ fault, stop? = some (.code fault)) → done = [])) ∧
      ((∃ fault, stop? = some (.code fault)) → report.written = []) := by
  obtain ⟨done, stop?, ho, hwritten⟩ := run_outcome input o command root (.ofTree t) h
  refine ⟨done, stop?, ho, ?_, ?_⟩
  · rw [hwritten]
    unfold listed
    split
    · rw [eq_comm, eraseDups_eq_nil_iff, List.map_eq_nil_iff]
      simp
    · next hother => exact iff_of_true rfl fun ⟨fault, hstop⟩ => absurd hstop (hother fault)
  · rintro ⟨fault, rfl⟩
    exact hwritten

/-- After a failed check the list is empty, whatever is on the disk. -/
theorem run_of_code {input : Input} {d : Document} {records : List Record}
    {fault : StructureFault} (hread : input.read = .ok ⟨d, records⟩) (o : Options)
    (command : String) (root : Path) (disk : Disk)
    (h : (generate d o command root disk).1 = .error (.code fault)) :
    (∃ warnings, (run input o command root disk).outcome =
      .ok ⟨[], some fault.message, warnings⟩) ∧
      (run input o command root disk).disk = (generate d o command root disk).2.disk := by
  rw [run, hread]
  dsimp only
  rw [h]
  exact ⟨⟨_, rfl⟩, rfl⟩

section Unclosed

/-- An enumeration whose import line leaves a brace open. -/
def unclosed : Definition :=
  ⟨"B", [⟨"x'\x7b", .enumeration [.str "on"] false "#/definitions/B/properties/x'\x7b"⟩]⟩

def unclosedInput : Input :=
  .text ("\x7b\"definitions\":\x7b\"B\":\x7b\"properties\":" ++
    "\x7b\"x'\x7b\":\x7b\"enum\":[\"on\"]\x7d\x7d\x7d\x7d\x7d")

def uncommented : Options where
  generationComment := .bool false

def unclosedEnumeration : Enumeration :=
  .ofValues "x'\x7b" [.str "on"]

def unclosedModel : DartModels.Model :=
  (Analysis.ofProperties ⟨[unclosed]⟩ uncommented unclosed.name unclosed.properties).model

def unclosedFirst : GeneratedFile where
  path := (Path.ofString "enums").join
    (Path.ofString (uncommented.fileName unclosedEnumeration.stem))
  content := enumFile uncommented (generationComment uncommented programName) unclosedEnumeration

def unclosedSecond : GeneratedFile where
  path := modelPath uncommented unclosedModel.stem
  content := modelFile uncommented (generationComment uncommented programName) unclosedModel

/-- A reading that holds that definition alone and left nothing out. -/
def isUnclosed : Except Fault Reading → Bool
  | .ok ⟨⟨[⟨name, [⟨property, .enumeration [.str value] false path⟩]⟩]⟩, []⟩ =>
    name = "B" ∧ property = "x'\x7b" ∧ value = "on" ∧ path = "#/definitions/B/properties/x'\x7b"
  | _ => false

theorem read_unclosedInput : unclosedInput.read = .ok ⟨⟨[unclosed]⟩, []⟩ := by
  have h : isUnclosed unclosedInput.read = true := by decide +kernel
  unfold isUnclosed at h
  split at h
  · next hread =>
    obtain ⟨rfl, rfl, rfl, rfl⟩ := of_decide_eq_true h
    exact hread
  · cases h

theorem analyze_unclosed : analyze ⟨[unclosed]⟩ uncommented unclosed =
    .ok (.ofProperties ⟨[unclosed]⟩ uncommented unclosed.name unclosed.properties) := by rfl

theorem build_unclosed : (build ⟨[unclosed]⟩ uncommented programName).files =
    [unclosedFirst, unclosedSecond] := by rfl

theorem turns_importLines_unclosed :
    Turns (unlines (importLines uncommented unclosedModel)) [] ['\x7d'] := by
  have hlines : importLines uncommented unclosedModel =
      [importLine convertImport, "", "import '../enums/x'\x7b.dart';"] := by decide +kernel
  have hname : Turns "\x7b.dart" [] ['\x7d'] := turns_plain rfl
  have hend : Turns (";" ++ "\n") ['\x7d'] ['\x7d'] := turns_plain rfl
  have hline : Turns (unlines ["import '../enums/x'\x7b.dart';"]) [] ['\x7d'] := by
    have htext : unlines ["import '../enums/x'\x7b.dart';"] =
        "import " ++ quote "../enums/x" ++ "\x7b.dart" ++ ("'" ++ ";" ++ "\n") := by
      decide +kernel
    rw [htext]
    exact (((IsFlat.turns (by decide) []).append (turns_quote _ [])).append hname).append
      (turns_unclosed (List.forall_mem_singleton.2 (by decide)) hend)
  rw [hlines]
  exact (turns_importLine (by decide) []).cons (Turns.nil.cons hline)

theorem write_of_fault {content : String} {fault : StructureFault}
    (h : checkStructure content.toList = .error fault) (target : Path) (disk : Disk) :
    write target content true disk = (.error (.code fault), disk) := by
  simp [write, writeBy, h]

theorem write_unclosedFirst :
    (write (Path.join ⟨1, ["out"]⟩ unclosedFirst.path) unclosedFirst.content true
      (.ofTree ⟨[]⟩)).1 = .ok () := by
  have hmem : unclosedEnumeration ∈ unclosedModel.enumerations :=
    mem_enumerations "B" List.mem_cons_self List.mem_cons_self
  have hscalar : ∀ m ∈ unclosedEnumeration.members, m.literal.isScalar = true := by
    simp [unclosedEnumeration, Enumeration.ofValues, Json.isScalar]
  have hcommand : '\n' ∉ programName.toList := by decide
  have hcheck : checkStructure unclosedFirst.content.toList = .ok () :=
    checkStructure_enumFile analyze_unclosed hcommand hmem hscalar
  rw [write, writeBy, if_pos rfl, hcheck]
  decide +kernel

theorem checkStructure_unclosedSecond :
    ∃ fault, checkStructure unclosedSecond.content.toList = .error fault := by
  have hcommand : '\n' ∉ programName.toList := by decide
  exact exists_fault_of_turns
    (turns_modelFile analyze_unclosed hcommand turns_importLines_unclosed) List.mem_cons_self

/-- The enumeration can be written, and the model fails the check. -/
theorem stopped_unclosed {fault : StructureFault}
    (hfault : checkStructure unclosedSecond.content.toList = .error fault)
    {done : List GeneratedFile} {stop? : Option Stop} {after : Disk}
    (h : Outcome uncommented ⟨1, ["out"]⟩ (.ofTree ⟨[]⟩) [unclosedFirst, unclosedSecond] done stop?
      after) : done = [unclosedFirst] ∧ stop? = some (.code fault) := by
  have hsecond (disk : Disk) : (write (Path.join ⟨1, ["out"]⟩ unclosedSecond.path)
      unclosedSecond.content uncommented.validate.holds disk).1 = .error (.code fault) :=
    congrArg Prod.fst (write_of_fault hfault _ disk)
  obtain ⟨middle, more, rfl, hmore⟩ := h.exists_done_cons write_unclosedFirst
  obtain ⟨rfl, rfl⟩ := hmore.stopped_at_first (hsecond middle)
  exact ⟨rfl, rfl⟩

theorem run_unclosed :
    ∃ fault warnings, (run unclosedInput uncommented programName ⟨1, ["out"]⟩
        (.ofTree ⟨[]⟩)).outcome = .ok ⟨[], some fault.message, warnings⟩ ∧
      Outcome uncommented ⟨1, ["out"]⟩ (.ofTree ⟨[]⟩) [unclosedFirst, unclosedSecond]
        [unclosedFirst] (some (.code fault))
        (run unclosedInput uncommented programName ⟨1, ["out"]⟩ (.ofTree ⟨[]⟩)).disk := by
  obtain ⟨fault, hfault⟩ := checkStructure_unclosedSecond
  obtain ⟨done, stop?, ho, -, hr⟩ :=
    generate_outcome ⟨[unclosed]⟩ uncommented programName ⟨1, ["out"]⟩ (.ofTree ⟨[]⟩)
  rw [build_unclosed] at ho
  obtain ⟨rfl, rfl⟩ := stopped_unclosed hfault ho
  obtain ⟨⟨warnings, houtcome⟩, hdisk⟩ := run_of_code read_unclosedInput uncommented programName
    ⟨1, ["out"]⟩ (.ofTree ⟨[]⟩) hr
  rw [← hdisk] at ho
  exact ⟨fault, warnings, houtcome, ho⟩

theorem reported_written_iff_unclosed :
    let r := run unclosedInput uncommented programName ⟨1, ["out"]⟩ (.ofTree ⟨[]⟩)
    ∃ report, r.outcome = .ok report ∧ ∃ done stop?,
      Outcome uncommented ⟨1, ["out"]⟩ (.ofTree ⟨[]⟩)
        (built unclosedInput uncommented programName) done stop? r.disk ∧
      (report.written = (done.map fun file => Path.join ⟨1, ["out"]⟩ file.path).eraseDups ↔
        ((∃ fault, stop? = some (.code fault)) → done = [])) := by
  obtain ⟨fault, warnings, houtcome, -⟩ := run_unclosed
  obtain ⟨done, stop?, ho, hiff, -⟩ := reported_written_iff unclosedInput uncommented programName
    ⟨1, ["out"]⟩ ⟨[]⟩ houtcome
  exact ⟨_, houtcome, done, stop?, ho, hiff⟩

/-- One file is written completely, and the report does not list it. -/
theorem unclosed_not_reported :
    let r := run unclosedInput uncommented programName ⟨1, ["out"]⟩ (.ofTree ⟨[]⟩)
    ∃ report fault, r.outcome = .ok report ∧
      Outcome uncommented ⟨1, ["out"]⟩ (.ofTree ⟨[]⟩) [unclosedFirst, unclosedSecond]
        [unclosedFirst] (some (.code fault)) r.disk ∧
      report.written ≠ ([unclosedFirst].map fun f => Path.join ⟨1, ["out"]⟩ f.path).eraseDups := by
  obtain ⟨fault, warnings, houtcome, ho⟩ := run_unclosed
  refine ⟨_, fault, houtcome, ho, fun hwritten => ?_⟩
  have hnil := eraseDups_eq_nil_iff.1 hwritten.symm
  cases hnil

end Unclosed

end DartModels.Generation
