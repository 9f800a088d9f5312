import DartModels.Proofs.Files.Places
import DartModels.Proofs.Path.Names
import Mathlib.Data.Fintype.EquivFin

/-! # Paths that stay below a folder

A path leads to a place below every folder that it is joined to if and only if it is relative, never
climbs above its start and ends below it. How deep it stands is counted segment by segment.
-/

namespace DartModels.Path

open Files

/-- A place strictly below a folder. -/
def PlaceBelow (folder q : Place) : Prop :=
  ∃ names, names ≠ [] ∧ q = folder ++ names

/-- A path that leads to a place strictly below the place of another one. -/
def Below (root p : Path) : Prop :=
  PlaceBelow root.place p.place

/-- How deep a walk is after one more segment, unless it climbs above its start. -/
def step? (depth : Nat) (segment : String) : Option Nat :=
  if segment = ".." then if depth = 0 then none else some (depth - 1) else some (depth + 1)

/-- How deep a walk ends that starts at a depth. -/
def descend (depth : Nat) (segments : List String) : Option Nat :=
  segments.foldlM step? depth

/-- A relative path that never climbs more than `depth` folders above its start. -/
def Stays (depth : Nat) (p : Path) : Prop :=
  p.slashes = 0 ∧ (descend depth p.segments).isSome = true

instance (depth : Nat) (p : Path) : Decidable (Stays depth p) :=
  inferInstanceAs (Decidable (_ ∧ _))

/-- A relative path that never climbs above its start and ends below it. -/
def IsInner (p : Path) : Prop :=
  p.slashes = 0 ∧ ∃ depth, 0 < depth ∧ descend 0 p.segments = some depth

variable {depth : Nat} {segments : List String} {p : Path}

theorem advance_dots (folder : Place) : advance folder ".." = folder.dropLast :=
  if_pos rfl

theorem advance_name {segment : String} (h : segment ≠ "..") (folder : Place) :
    advance folder segment = folder ++ [segment] :=
  if_neg h

theorem step?_name {segment : String} (h : segment ≠ "..") (depth : Nat) :
    step? depth segment = some (depth + 1) :=
  if_neg h

theorem step?_eq_none_iff {segment : String} :
    step? depth segment = none ↔ segment = ".." ∧ depth = 0 := by
  unfold step?
  split <;> simp_all

theorem descend_cons (depth : Nat) (segment : String) (rest : List String) :
    descend depth (segment :: rest) = (step? depth segment).bind fun inner => descend inner rest :=
  rfl

theorem descend_append (depth : Nat) (a b : List String) :
    descend depth (a ++ b) = (descend depth a).bind fun inner => descend inner b :=
  List.foldlM_append

theorem advance_of_step? {names : List String} {segment : String}
    (h : step? names.length segment = some depth) :
    ∃ names', names'.length = depth ∧
      ∀ above, advance (above ++ names) segment = above ++ names' := by
  unfold step? at h
  split at h
  · next hdots =>
    split at h
    · cases h
    · next hlength =>
      have hne : names ≠ [] := List.ne_nil_of_length_pos (Nat.pos_of_ne_zero hlength)
      refine ⟨names.dropLast, ?_, fun above => ?_⟩
      · rw [List.length_dropLast, Option.some.inj h]
      · rw [hdots, advance_dots, List.dropLast_append_of_ne_nil hne]
  · next hname =>
    refine ⟨names ++ [segment], ?_, fun above => ?_⟩
    · rw [List.length_append, List.length_singleton, Option.some.inj h]
    · rw [advance_name hname, List.append_assoc]

/-- A walk that does not climb above its start leads below it, wherever it starts. -/
theorem foldl_advance_of_descend (names : List String)
    (h : descend names.length segments = some depth) :
    ∃ names', names'.length = depth ∧
      ∀ above, segments.foldl advance (above ++ names) = above ++ names' := by
  induction segments generalizing names with
  | nil => exact ⟨names, Option.some.inj h, fun _ => rfl⟩
  | cons segment rest ih =>
    rw [descend_cons] at h
    obtain ⟨inner, hsegment, hrest⟩ := Option.bind_eq_some_iff.1 h
    obtain ⟨names', rfl, hstep⟩ := advance_of_step? hsegment
    obtain ⟨names'', hlength, hwalk⟩ := ih names' hrest
    refine ⟨names'', hlength, fun above => ?_⟩
    rw [List.foldl_cons, hstep, hwalk]

/-- A walk that climbs above its start leaves a folder of a name that it does not know. -/
theorem notMem_of_descend_eq_none {start : String} (hstart : start ∉ segments)
    (names : List String) (hnames : start ∉ names) (h : descend names.length segments = none) :
    start ∉ segments.foldl advance (start :: names) := by
  induction segments generalizing names with
  | nil => cases h
  | cons segment rest ih =>
    rw [List.mem_cons, not_or] at hstart
    rw [descend_cons] at h
    cases hsegment : step? names.length segment with
    | none =>
      obtain ⟨hdots, hlength⟩ := step?_eq_none_iff.1 hsegment
      obtain rfl := List.length_eq_zero_iff.1 hlength
      rw [List.foldl_cons, hdots]
      intro hmem
      rcases mem_of_mem_foldl_advance hmem with hmem | hmem
      · cases hmem
      · exact hstart.2 hmem
    | some inner =>
      obtain ⟨names', rfl, hstep⟩ := advance_of_step? hsegment
      rw [hsegment] at h
      have hnames' : start ∉ names' := by
        intro hmem
        have hfolder : [segment].foldl advance names = names' := hstep []
        rcases mem_of_mem_foldl_advance (hfolder ▸ hmem) with hmem | hmem
        · exact hnames hmem
        · exact hstart.1 (List.mem_singleton.1 hmem)
      have hnext : advance (start :: names) segment = start :: names' := hstep [start]
      rw [List.foldl_cons, hnext]
      exact ih hstart.2 names' hnames' h

theorem isAbsolute_eq_false_iff : p.isAbsolute = false ↔ p.slashes = 0 := by
  simp [isAbsolute]

theorem place_join (root : Path) (h : p.slashes = 0) :
    (root.join p).place = p.segments.foldl advance root.place := by
  rw [join, isAbsolute_eq_false_iff.2 h]
  exact place_append root.slashes root.segments p.segments

theorem IsInner.below_join (h : IsInner p) (root : Path) : Below root (root.join p) := by
  obtain ⟨hslashes, depth, hpositive, hdescend⟩ := h
  obtain ⟨names, rfl, hwalk⟩ := foldl_advance_of_descend [] hdescend
  refine ⟨names, List.ne_nil_of_length_pos hpositive, ?_⟩
  rw [place_join root hslashes, ← List.append_nil root.place, hwalk, List.append_nil]

/-- A path leads below every folder that it is joined to if and only if it is an inner path. -/
theorem forall_below_join_iff : (∀ root : Path, Below root (root.join p)) ↔ IsInner p := by
  constructor
  · intro h
    obtain ⟨start, hstart⟩ := Infinite.exists_notMem_finset (".." :: p.segments).toFinset
    rw [List.mem_toFinset, List.mem_cons, not_or] at hstart
    obtain ⟨names, hne, hplace⟩ := h ⟨1, [start]⟩
    have hroot : place ⟨1, [start]⟩ = [start] := advance_name hstart.1 []
    rw [hroot] at hplace
    have hmem : start ∈ (Path.join ⟨1, [start]⟩ p).place := hplace ▸ List.mem_cons_self
    by_cases hslashes : p.slashes = 0
    · rw [place_join _ hslashes, hroot] at hplace hmem
      refine ⟨hslashes, ?_⟩
      cases hdescend : descend 0 p.segments with
      | none =>
        have hleft := notMem_of_descend_eq_none hstart.2 [] List.not_mem_nil hdescend
        exact absurd hmem hleft
      | some depth =>
        obtain ⟨names', rfl, hwalk⟩ := foldl_advance_of_descend [] hdescend
        obtain rfl : names' = names := by simpa using (hwalk [start]).symm.trans hplace
        exact ⟨_, List.length_pos_iff.2 hne, rfl⟩
    · rw [join_of_isAbsolute (by simpa [isAbsolute] using hslashes)] at hmem
      rcases mem_of_mem_foldl_advance hmem with hmem | hmem
      · cases hmem
      · exact absurd hmem hstart.2
  · exact IsInner.below_join

section Descent

variable {inner : Nat}

/-- Nothing is out of reach from further down. -/
theorem step?_add {segment : String} (h : step? depth segment = some inner) (more : Nat) :
    step? (depth + more) segment = some (inner + more) := by
  unfold step? at h ⊢
  split at h
  · next hdots =>
    split at h
    · cases h
    · rw [if_pos hdots, if_neg (by omega), ← Option.some.inj h]
      congr 1
      omega
  · next hname =>
    rw [if_neg hname, ← Option.some.inj h, Nat.add_right_comm]

theorem descend_name {name : String} (h : name ≠ "..") (depth : Nat) :
    descend depth [name] = some (depth + 1) := by
  rw [descend_cons, step?_name h, Option.bind_some, descend, List.foldlM_nil, Option.pure_def]

/-- An ordinary name leads down. -/
theorem IsName.stays {s : String} (h : IsName s) (depth : Nat) : Stays depth (ofString s) := by
  rw [Stays, ofString_name h, descend_name h.ne_dots]
  exact ⟨rfl, rfl⟩

theorem descend_add (h : descend depth segments = some inner) (more : Nat) :
    descend (depth + more) segments = some (inner + more) := by
  induction segments generalizing depth with
  | nil => rw [← Option.some.inj h, descend, List.foldlM_nil, Option.pure_def]
  | cons segment rest ih =>
    rw [descend_cons] at h ⊢
    obtain ⟨next, hsegment, hrest⟩ := Option.bind_eq_some_iff.1 h
    rw [step?_add hsegment, Option.bind_some, ih hrest]

end Descent

section Suffixes

variable {stem suffix : String}

/-- A suffix without slashes only changes the last segment of a path, and it makes a name of it. -/
theorem exists_segments_append (stem : String) (hslash : '/' ∉ suffix.toList)
    (hlength : 2 < suffix.length) :
    ∃ init last name, (ofString stem).segments = init ++ last ∧ name ≠ ".." ∧
      (ofString (stem ++ suffix)).segments = init ++ [name] := by
  obtain ⟨init, last, hstem, hall⟩ :=
    Text.exists_segments_append stem.toList (not_slash_of_notMem hslash)
  let kept := fun pieces : List (List Char) =>
    (pieces.map String.ofList).filter fun segment => segment != "" && segment != "."
  have hlast : 2 < (String.ofList (last ++ suffix.toList)).length := by
    rw [String.length_ofList, List.length_append, String.length_toList]
    omega
  have hne : ∀ s : String, s.length ≤ 2 → String.ofList (last ++ suffix.toList) ≠ s := by
    rintro s hs rfl
    omega
  have hkept : kept [last ++ suffix.toList] = [String.ofList (last ++ suffix.toList)] := by
    have hempty := hne "" (by decide)
    have hdot := hne "." (by decide)
    simp only [kept, List.map_cons, List.map_nil]
    generalize String.ofList (last ++ suffix.toList) = name at hempty hdot ⊢
    simp [hempty, hdot]
  refine ⟨kept init, kept [last], String.ofList (last ++ suffix.toList), ?_,
    hne ".." (by decide), ?_⟩
  · simp only [kept, ofString, Text.split, hstem, List.map_append, List.filter_append]
  · rw [← hkept]
    simp only [kept, ofString, Text.split, String.toList_append, hall, List.map_append,
      List.filter_append]

theorem rootSlashes_eq_zero_iff {s : List Char} : rootSlashes s = 0 ↔ s.head? ≠ some '/' := by
  cases s with
  | nil => simp [rootSlashes]
  | cons c rest =>
    by_cases hc : c = '/'
    · subst hc
      unfold rootSlashes
      split <;> simp_all
    · simp [rootSlashes_of_head hc, hc]

theorem slashes_ofString_append (stem : String) (hslash : '/' ∉ suffix.toList) :
    (ofString (stem ++ suffix)).slashes = 0 ↔ (ofString stem).slashes = 0 := by
  dsimp only [ofString]
  rw [String.toList_append, rootSlashes_eq_zero_iff, rootSlashes_eq_zero_iff]
  cases stem.toList with
  | nil =>
    have hhead : suffix.toList.head? ≠ some '/' := fun h => hslash (List.mem_of_head? h)
    simpa using hhead
  | cons c rest => rfl

/-- A relative path that ends with a name ends below its start unless it climbs above it. -/
theorem isInner_join_iff {base : Path} (hbase : base.slashes = 0) {init : List String}
    {name : String} (hname : name ≠ "..") (hp : p.segments = init ++ [name]) :
    IsInner (base.join p) ↔
      p.slashes = 0 ∧ (descend 0 (base.segments ++ p.segments)).isSome = true := by
  by_cases hslashes : p.slashes = 0
  · have hrelative := isAbsolute_eq_false_iff.2 hslashes
    have hjoin : base.join p = ⟨0, base.segments ++ p.segments⟩ := by
      simp [join, hrelative, hbase]
    rw [hjoin, IsInner, Option.isSome_iff_exists]
    refine and_congr (iff_of_true rfl hslashes) (exists_congr fun depth => ?_)
    refine and_iff_right_of_imp fun h => ?_
    dsimp only at h
    rw [hp, ← List.append_assoc, descend_append] at h
    obtain ⟨inner, -, hlast⟩ := Option.bind_eq_some_iff.1 h
    rw [descend_name hname] at hlast
    exact Option.some.inj hlast ▸ Nat.succ_pos inner
  · rw [join_of_isAbsolute (by simpa [isAbsolute] using hslashes)]
    exact iff_of_false (fun h => hslashes h.1) fun h => hslashes h.1

/-- A file named for the folder in which it stands is below the root if and only if that folder's
path does not climb above its start. -/
theorem isInner_join_self_iff (hslash : '/' ∉ suffix.toList) (hlength : 2 < suffix.length) :
    IsInner ((ofString stem).join (ofString (stem ++ suffix))) ↔ Stays 0 (ofString stem) := by
  obtain ⟨init, last, name, hstem, hname, hfile⟩ := exists_segments_append stem hslash hlength
  have hslashes := slashes_ofString_append stem hslash
  by_cases hroot : (ofString stem).slashes = 0
  · rw [isInner_join_iff hroot hname hfile, hslashes, Stays, descend_append]
    refine and_congr_right fun _ => ?_
    cases hinner : descend 0 (ofString stem).segments with
    | none => rfl
    | some inner =>
      rw [hstem, descend_append] at hinner
      obtain ⟨base, hbase, -⟩ := Option.bind_eq_some_iff.1 hinner
      have hfurther := descend_add hbase inner
      rw [Nat.zero_add] at hfurther
      rw [Option.bind_some, hfile, descend_append, hfurther, Option.bind_some, descend_name hname]
      rfl
  · have habsolute : (ofString (stem ++ suffix)).isAbsolute = true := by
      simpa [isAbsolute, hslashes] using hroot
    rw [join_of_isAbsolute habsolute]
    exact iff_of_false (fun h => hroot (hslashes.1 h.1)) fun h => hroot h.1

/-- In a folder of its own, a file may climb one step. -/
theorem isInner_join_name_iff {folder : String} (hfolder : IsName folder)
    (hslash : '/' ∉ suffix.toList) (hlength : 2 < suffix.length) :
    IsInner ((ofString folder).join (ofString (stem ++ suffix))) ↔
      Stays 1 (ofString (stem ++ suffix)) := by
  obtain ⟨init, last, name, -, hname, hfile⟩ := exists_segments_append stem hslash hlength
  rw [ofString_name hfolder, isInner_join_iff rfl hname hfile, Stays, List.singleton_append,
    descend_cons, step?_name hfolder.ne_dots, Option.bind_some]

end Suffixes

end DartModels.Path
