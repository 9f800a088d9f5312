import DartModels.Generation.Run
import DartModels.Proofs.Files.Replacement
import DartModels.Proofs.Files.Unreachable
import DartModels.Proofs.Generation.Drafts

/-! # Runs write what is built

A run drafts and writes by turns. What it does to the disk is to write the files of the whole draft
in order, up to the first one that cannot be written.
-/

namespace DartModels.Generation

open Files Schema

variable {d : Document} {o : Options} {command : String} {root : Path}

/-- Files that are written one after the other, each of them completely. -/
inductive Written (o : Options) (root : Path) : Disk → List GeneratedFile → Disk → Prop

  | nil {before : Disk} : Written o root before [] before

  | cons {file : GeneratedFile} {rest : List GeneratedFile} {before middle after : Disk} :
      write (root.join file.path) file.content o.validate.holds before = (.ok (), middle) →
      Written o root middle rest after → Written o root before (file :: rest) after

/-- How it ends when files are written in order: which of them are done, and why not all. -/
inductive Outcome (o : Options) (root : Path) (before : Disk) (files : List GeneratedFile) :
    List GeneratedFile → Option Stop → Disk → Prop

  | complete {after : Disk} : Written o root before files after →
      Outcome o root before files files none after

  | stopped {done rest : List GeneratedFile} {file : GeneratedFile} {middle after : Disk}
      {fault : WriteFault} : files = done ++ file :: rest → Written o root before done middle →
      write (root.join file.path) file.content o.validate.holds middle = (.error fault, after) →
      Outcome o root before files done (some (.ofWrite (root.join file.path) fault)) after

section Order

variable {before middle after : Disk} {files rest done : List GeneratedFile}

theorem Written.append (h : Written o root before files middle)
    (h' : Written o root middle rest after) : Written o root before (files ++ rest) after := by
  induction h with
  | nil => exact h'
  | cons hw _ ih => exact .cons hw (ih h')

theorem Outcome.after_written {stop? : Option Stop} (h : Written o root before files middle)
    (h' : Outcome o root middle rest done stop? after) :
    Outcome o root before (files ++ rest) (files ++ done) stop? after := by
  cases h' with
  | complete hw => exact .complete (h.append hw)
  | stopped hr hw hf => exact .stopped (by rw [hr, List.append_assoc]) (h.append hw) hf

theorem Outcome.append_of_stopped {stop : Stop}
    (h : Outcome o root before files done (some stop) after) :
    Outcome o root before (files ++ rest) done (some stop) after := by
  cases h with
  | stopped hr hw hf => exact .stopped (by rw [hr, List.append_assoc, List.cons_append]) hw hf

/-- The paths of written files are added in order. -/
def addPaths (root : Path) (files : List GeneratedFile) (written : List Path) : List Path :=
  files.foldl (fun written file => addPath (root.join file.path) written) written

theorem addPaths_append (written : List Path) :
    addPaths root (files ++ rest) written = addPaths root rest (addPaths root files written) :=
  List.foldl_append

theorem addPath_eraseDups (path : Path) (written : List Path) :
    addPath path written.eraseDups = (written ++ [path]).eraseDups := by
  rw [addPath, List.eraseDups_append]
  by_cases h : path ∈ written
  · simp [List.removeAll, h]
  · simp [List.removeAll, h, List.eraseDups_cons]

theorem addPaths_eraseDups (written : List Path) :
    addPaths root files written.eraseDups =
      (written ++ files.map fun file => root.join file.path).eraseDups := by
  induction files generalizing written with
  | nil => rw [addPaths, List.foldl_nil, List.map_nil, List.append_nil]
  | cons file rest ih =>
    rw [addPaths, List.foldl_cons, addPath_eraseDups]
    exact (ih _).trans (by rw [List.append_assoc, List.map_cons, List.singleton_append])

end Order

/-- A write that fails stops a run before a fault of the options can. -/
def verdict : Option Stop → Option Options.Fault → Except Stop Unit
  | some stop, _ => .error stop
  | none, some fault => .error (.options fault)
  | none, none => .ok ()

theorem writeFiles_outcome (o : Options) (root : Path) (files : List GeneratedFile)
    (p : Progress) :
    ∃ done stop?,
      Outcome o root p.disk files done stop? (writeFiles o root files p).2.disk ∧
      (writeFiles o root files p).2.written = addPaths root done p.written ∧
      (writeFiles o root files p).1 = verdict stop? none := by
  induction files generalizing p with
  | nil => exact ⟨[], none, .complete .nil, rfl, rfl⟩
  | cons file rest ih =>
    rw [writeFiles]
    split
    · next disk hw =>
      obtain ⟨done, stop?, ho, hwritten, hr⟩ := ih (p.wrote (root.join file.path) disk)
      exact ⟨file :: done, stop?, .after_written (.cons hw .nil) ho, hwritten, hr⟩
    · next fault disk hw => exact ⟨[], _, .stopped rfl .nil hw, rfl, rfl⟩

theorem draftDefinition_files_of_fault {A : Definition} {fault : Options.Fault}
    (h : (draftDefinition d o command A).fault? = some fault) :
    (draftDefinition d o command A).files = [] := by
  rw [draftDefinition] at h ⊢
  cases ha : Model.analyze d o A with
  | error fault => rfl
  | ok a =>
    cases hfiles : filesOf o (generationComment o command) a.model with
    | error fault => simp [hfiles]
    | ok files => simp [ha, hfiles] at h

theorem generateEach_outcome (d : Document) (o : Options) (command : String) (root : Path)
    (definitions : List Definition) (p : Progress) :
    ∃ done stop?,
      Outcome o root p.disk (draftEach d o command definitions).files done stop?
        (generateEach d o command root definitions p).2.disk ∧
      (generateEach d o command root definitions p).2.written = addPaths root done p.written ∧
      (generateEach d o command root definitions p).1 =
        verdict stop? (draftEach d o command definitions).fault? := by
  induction definitions generalizing p with
  | nil => exact ⟨[], none, .complete .nil, rfl, rfl⟩
  | cons A rest ih =>
    rw [generateEach, draftEach, Draft.andThen]
    cases hfault : (draftDefinition d o command A).fault? with
    | some fault =>
      refine ⟨[], none, ?_, rfl, ?_⟩
      · dsimp only
        rw [draftDefinition_files_of_fault hfault]
        exact .complete .nil
      · dsimp only
        rw [hfault]
        rfl
    | none =>
      obtain ⟨done, stop?, ho, hwritten, hr⟩ := writeFiles_outcome o root
        (draftDefinition d o command A).files (p.note (draftDefinition d o command A))
      dsimp only
      generalize writeFiles o root (draftDefinition d o command A).files
        (p.note (draftDefinition d o command A)) = r at ho hwritten hr
      obtain ⟨result, q⟩ := r
      dsimp only at ho hwritten hr
      subst hr
      cases ho with
      | complete hw =>
        obtain ⟨more, stop?, ho, hmore, hr⟩ := ih q
        have hall : addPaths root more q.written =
            addPaths root ((draftDefinition d o command A).files ++ more) p.written := by
          rw [addPaths_append, hwritten]
          rfl
        exact ⟨_, stop?, ho.after_written hw, hmore.trans hall, hr⟩
      | stopped hfiles hw hf =>
        exact ⟨done, _, (Outcome.stopped hfiles hw hf).append_of_stopped, hwritten, rfl⟩

theorem generate_outcome (d : Document) (o : Options) (command : String) (root : Path)
    (disk : Disk) :
    ∃ done stop?,
      Outcome o root disk (build d o command).files done stop?
        (generate d o command root disk).2.disk ∧
      (generate d o command root disk).2.written = addPaths root done [] ∧
      (generate d o command root disk).1 = verdict stop? (build d o command).fault? := by
  rw [generate]
  cases hkept : keptDefinitions o d.definitions with
  | error fault =>
    rw [build, hkept]
    exact ⟨[], none, .complete .nil, rfl, rfl⟩
  | ok kept =>
    rw [build_of_kept hkept]
    obtain ⟨done, stop?, ho, hwritten, hr⟩ :=
      generateEach_outcome d o command root kept (.start disk)
    dsimp only
    split
    · next stop p hp =>
      rw [hp] at ho hwritten hr
      exact ⟨done, stop?, ho, hwritten, hr⟩
    · next p hp =>
      rw [hp] at ho hwritten hr
      exact ⟨done, stop?, ho, hwritten, hr⟩

/-- A run that succeeds has written all files of a build without a fault. -/
theorem written_of_generate_ok {disk : Disk}
    (h : (generate d o command root disk).1 = .ok ()) :
    (build d o command).fault? = none ∧
      Written o root disk (build d o command).files (generate d o command root disk).2.disk := by
  obtain ⟨done, stop?, ho, -, hr⟩ := generate_outcome d o command root disk
  rw [h] at hr
  cases ho with
  | complete hw =>
    cases hfault : (build d o command).fault? with
    | none => exact ⟨rfl, hw⟩
    | some fault => cases hfault ▸ hr
  | stopped => cases hr

/-- A file that can be written among others can be written once those before it are. -/
theorem Written.exists_write {before middle after : Disk} {done rest : List GeneratedFile}
    {file : GeneratedFile} (h : Written o root before (done ++ file :: rest) after)
    (hdone : Written o root before done middle) :
    ∃ next, write (root.join file.path) file.content o.validate.holds middle = (.ok (), next) := by
  induction hdone with
  | nil =>
    cases h with
    | cons hw _ => exact ⟨_, hw⟩
  | cons hw _ ih =>
    cases h with
    | cons hw' hrest =>
      obtain ⟨-, rfl⟩ := Prod.mk.inj (hw.symm.trans hw')
      exact ih hrest

/-- A run succeeds if there is a build and all its files can be written. -/
theorem generate_ok_of_written {disk after : Disk} (hbuilt : (build d o command).fault? = none)
    (h : Written o root disk (build d o command).files after) :
    (generate d o command root disk).1 = .ok () := by
  obtain ⟨done, stop?, ho, -, hr⟩ := generate_outcome d o command root disk
  rw [hr, hbuilt]
  cases ho with
  | complete => rfl
  | stopped hfiles hdone hf =>
    rw [hfiles] at h
    obtain ⟨next, hw⟩ := h.exists_write hdone
    cases hf.symm.trans hw

/-- A file that passes the check is written as if the check were waived. -/
theorem Written.of_checked {before after : Disk} {file : GeneratedFile} {rest : List GeneratedFile}
    (hcheck : Dart.checkStructure file.content.toList = .ok ())
    (hw : (write (root.join file.path) file.content false before).1 = .ok ())
    (h : Written o root (write (root.join file.path) file.content false before).2 rest after) :
    Written o root before (file :: rest) after := by
  have hwaived : write (root.join file.path) file.content o.validate.holds before =
      write (root.join file.path) file.content false before := by
    simp [write, writeBy, hcheck]
  exact .cons (hwaived.trans (Prod.ext hw rfl)) h

section Contents

variable {before after : Disk} {files : List GeneratedFile}

/-- The last of several files whose path leads to a place. -/
def lastAt (root : Path) (files : List GeneratedFile) (q : Place) : Option GeneratedFile :=
  files.reverse.find? fun file => q = (root.join file.path).place

theorem lastAt_cons (file : GeneratedFile) (rest : List GeneratedFile) (q : Place) :
    lastAt root (file :: rest) q =
      (lastAt root rest q).or (if q = (root.join file.path).place then some file else none) := by
  rw [lastAt, List.reverse_cons, List.find?_append, lastAt]
  by_cases hq : q = (root.join file.path).place <;> simp [hq]

theorem lastAt_append (files rest : List GeneratedFile) (q : Place) :
    lastAt root (files ++ rest) q = (lastAt root rest q).or (lastAt root files q) := by
  rw [lastAt, List.reverse_append, List.find?_append]
  rfl

theorem mem_of_lastAt {file : GeneratedFile} {q : Place} (h : lastAt root files q = some file) :
    file ∈ files ∧ q = (root.join file.path).place :=
  ⟨List.mem_reverse.1 (List.mem_of_find?_eq_some h), by simpa using List.find?_some h⟩

theorem write_ok {target : Path} {content : String} {check : Bool}
    (h : write target content check before = (.ok (), after)) :
    Replaced target content.toUTF8 before.tree after.tree ∧
      readFile after.tree target = some content.toUTF8 :=
  (write_steps h).2

theorem Written.keepsFolders (h : Written o root before files after) :
    KeepsFolders before.tree after.tree := by
  induction h with
  | nil => exact fun _ => id
  | cons hw _ ih => exact fun q hq => ih q ((write_ok hw).1.keepsFolders q hq)

/-- Every place has the content of the last file written there, or what it had before. -/
theorem Written.content?_eq (h : Written o root before files after) (q : Place) :
    after.tree.content? q =
      ((lastAt root files q).map (·.content.toUTF8)).or (before.tree.content? q) := by
  induction h with
  | nil => rfl
  | @cons file rest before middle after hw _ ih =>
    rw [ih, lastAt_cons, (write_ok hw).1.content?_eq]
    cases lastAt root rest q with
    | none => split <;> simp
    | some last => simp

theorem exists_lastAt (root : Path) {file : GeneratedFile} (h : file ∈ files) :
    ∃ last, lastAt root files (root.join file.path).place = some last := by
  rw [← Option.isSome_iff_exists, lastAt, List.find?_isSome]
  exact ⟨file, List.mem_reverse.2 h, by simp⟩

/-- Along its path each written file can still be read while the folders stay. -/
theorem Written.readFile_eq (h : Written o root before files after) {file : GeneratedFile}
    (hf : file ∈ files) {s : Tree} (hs : KeepsFolders after.tree s) :
    readFile s (root.join file.path) = s.content? (root.join file.path).place := by
  induction h with
  | nil => cases hf
  | cons hw hrest ih =>
    rcases List.mem_cons.1 hf with rfl | hf
    · exact readFile_of_keepsFolders (fun q hq => hs q (hrest.keepsFolders q hq)) (write_ok hw).2
    · exact ih hf hs

theorem Written.readFile_eq_lastAt (h : Written o root before files after) {file : GeneratedFile}
    (hf : file ∈ files) {s : Tree} (hs : KeepsFolders after.tree s)
    (hc : ∀ q, s.content? q = after.tree.content? q) :
    readFile s (root.join file.path) =
      (lastAt root files (root.join file.path).place).map (·.content.toUTF8) := by
  obtain ⟨last, hlast⟩ := exists_lastAt root hf
  rw [h.readFile_eq hf hs, hc, h.content?_eq, hlast, Option.map_some, Option.some_or]

/-- A write that fails changes no file and takes no folder away. -/
theorem write_error {target : Path} {content : String} {check : Bool} {fault : WriteFault}
    (h : write target content check before = (.error fault, after)) :
    KeepsFolders before.tree after.tree ∧
      ∀ q, after.tree.content? q = before.tree.content? q := by
  have hend := (write_steps h).2
  cases fault with
  | code why =>
    obtain rfl : after = before := hend
    exact ⟨fun _ => id, fun _ => rfl⟩
  | access fault => exact ⟨Grown.keepsFolders hend, Grown.content?_eq hend⟩

theorem Outcome.mem_files {done : List GeneratedFile} {stop? : Option Stop}
    (h : Outcome o root before files done stop? after) {file : GeneratedFile} (hf : file ∈ done) :
    file ∈ files := by
  cases h with
  | complete _ => exact hf
  | stopped hfiles _ _ => exact hfiles ▸ List.mem_append_left _ hf

/-- However it ends, places have the content of the last file that is done, or what they had. -/
theorem Outcome.content?_eq {done : List GeneratedFile} {stop? : Option Stop}
    (h : Outcome o root before files done stop? after) (q : Place) :
    after.tree.content? q =
      ((lastAt root done q).map (·.content.toUTF8)).or (before.tree.content? q) := by
  cases h with
  | complete hw => exact hw.content?_eq q
  | stopped _ hw hf => exact ((write_error hf).2 q).trans (hw.content?_eq q)

theorem Outcome.done_prefix {done : List GeneratedFile} {stop? : Option Stop}
    (h : Outcome o root before files done stop? after) : done <+: files := by
  cases h with
  | complete => exact List.prefix_rfl
  | stopped hfiles => exact hfiles ▸ List.prefix_append _ _

theorem Outcome.nil_cases {done : List GeneratedFile} {stop? : Option Stop}
    (h : Outcome o root before [] done stop? after) : stop? = none := by
  cases h with
  | complete => rfl
  | stopped hfiles => exact absurd hfiles.symm (List.append_ne_nil_of_right_ne_nil _ nofun)

/-- Either the first file is done and the others follow, or it is where writing stops. -/
theorem Outcome.cons_cases {file : GeneratedFile} {done : List GeneratedFile}
    {stop? : Option Stop} (h : Outcome o root before (file :: files) done stop? after) :
    (∃ middle more, write (root.join file.path) file.content o.validate.holds before =
        (.ok (), middle) ∧ done = file :: more ∧ Outcome o root middle files more stop? after) ∨
      ∃ fault, write (root.join file.path) file.content o.validate.holds before =
          (.error fault, after) ∧ done = [] ∧
        stop? = some (.ofWrite (root.join file.path) fault) := by
  cases h with
  | complete hw =>
    cases hw with
    | cons hfirst hrest => exact .inl ⟨_, files, hfirst, rfl, .complete hrest⟩
  | stopped hfiles hdone hf =>
    cases hdone with
    | nil =>
      obtain ⟨rfl, -⟩ := List.cons.inj hfiles
      exact .inr ⟨_, hf, rfl, rfl⟩
    | cons hfirst hmore =>
      obtain ⟨rfl, hrest⟩ := List.cons.inj hfiles
      exact .inl ⟨_, _, hfirst, rfl, .stopped hrest hmore hf⟩

/-- A first file that can be written is done. -/
theorem Outcome.exists_done_cons {file : GeneratedFile} {done : List GeneratedFile}
    {stop? : Option Stop} (h : Outcome o root before (file :: files) done stop? after)
    (hw : (write (root.join file.path) file.content o.validate.holds before).1 = .ok ()) :
    ∃ middle more, done = file :: more ∧ Outcome o root middle files more stop? after := by
  rcases h.cons_cases with ⟨middle, more, -, hdone, hmore⟩ | ⟨fault, hf, -⟩
  · exact ⟨middle, more, hdone, hmore⟩
  · rw [hf] at hw
    cases hw

/-- A first file that cannot be written stops the run. -/
theorem Outcome.stopped_at_first {file : GeneratedFile} {done : List GeneratedFile}
    {stop? : Option Stop} {fault : WriteFault}
    (h : Outcome o root before (file :: files) done stop? after)
    (hf : (write (root.join file.path) file.content o.validate.holds before).1 = .error fault) :
    done = [] ∧ stop? = some (.ofWrite (root.join file.path) fault) := by
  rcases h.cons_cases with ⟨middle, more, hw, -⟩ | ⟨other, hother, hdone, hstop⟩
  · rw [hw] at hf
    cases hf
  · rw [hother] at hf
    obtain rfl := Except.error.inj hf
    exact ⟨hdone, hstop⟩

theorem lastAt_eq_none {q : Place} (h : ∀ file ∈ files, q ≠ (root.join file.path).place) :
    lastAt root files q = none := by
  rw [lastAt, List.find?_eq_none]
  exact fun file hf => by simpa using h file (List.mem_reverse.1 hf)

end Contents

/-- A run completes the writes of the first files that are built, in order and with nothing between
them. Either these are all, and the run ends as the build does; or the next file cannot be written,
and the run says so and names its path. What it wrote is listed without repetition in the order of
the first writes. In the end every place where it wrote has the content of the last file written
there, which can be read along the file's path, and every other place has what it had before. -/
theorem generate_writes_prefix (d : Document) (o : Options) (command : String) (root : Path)
    (t : Tree) :
    let draft := build d o command
    let path := fun file : GeneratedFile => root.join file.path
    let r := generate d o command root (.ofTree t)
    ∃ done rest middle, draft.files = done ++ rest ∧ Written o root (.ofTree t) done middle ∧
      r.2.written = (done.map path).eraseDups ∧
      (rest = [] ∧ r.2.disk = middle ∧ r.1 = verdict none draft.fault? ∨
        ∃ file others fault, rest = file :: others ∧
          write (path file) file.content o.validate.holds middle = (.error fault, r.2.disk) ∧
          ((∃ why, fault = .access (.refused why) ∧ r.1 = .error (.write (path file) why)) ∨
            (∃ why, fault = .code why ∧ r.1 = .error (.code why)) ∨
            (fault = .access .nulInPath ∧ (path file).HasNul))) ∧
      (∀ file ∈ done, readFile r.2.disk.tree (path file) =
        (lastAt root done (path file).place).map (·.content.toUTF8)) ∧
      ∀ q, r.2.disk.tree.content? q =
        ((lastAt root done q).map (·.content.toUTF8)).or (t.content? q) := by
  intro draft path r
  obtain ⟨done, stop?, ho, hwritten, hr⟩ := generate_outcome d o command root (.ofTree t)
  have hpaths : r.2.written = (done.map path).eraseDups :=
    hwritten.trans (addPaths_eraseDups [])
  cases ho with
  | complete hw =>
    exact ⟨draft.files, [], r.2.disk, (List.append_nil _).symm, hw, hpaths, .inl ⟨rfl, rfl, hr⟩,
      fun file hf => hw.readFile_eq_lastAt hf (fun _ => id) fun _ => rfl, hw.content?_eq⟩
  | @stopped _ others file middle _ fault hfiles hw hf =>
    obtain ⟨hkeeps, hcontent⟩ := write_error hf
    refine ⟨done, file :: others, middle, hfiles, hw, hpaths,
      .inr ⟨file, others, fault, rfl, hf, ?_⟩,
      fun file hfile => hw.readFile_eq_lastAt hfile hkeeps hcontent,
      fun q => (hcontent q).trans (hw.content?_eq q)⟩
    cases fault with
    | code why => exact .inr (.inl ⟨why, rfl, hr⟩)
    | access fault =>
      cases fault with
      | refused why => exact .inl ⟨why, rfl, hr⟩
      | nulInPath => exact .inr (.inr ⟨rfl, hasNul_of_writeBy hf⟩)

end DartModels.Generation
