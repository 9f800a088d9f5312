import DartModels.Files.Write
import Mathlib.Data.List.Infix

/-! # Places of paths

Whatever reaches an entry along a path finds it at one place, which depends on the path alone. What
a tree has to do with it is only whether the folders on the way are there.
-/

namespace DartModels

open Files

namespace Path

/-- Where a segment leads from a folder. -/
def advance (folder : Place) (segment : String) : Place :=
  if segment = ".." then folder.dropLast else folder ++ [segment]

/-- The place that a path leads to when all folders on the way are there. -/
def place (p : Path) : Place :=
  p.segments.foldl advance []

theorem place_append (slashes : Nat) (a b : List String) :
    place ⟨slashes, a ++ b⟩ = b.foldl advance (place ⟨slashes, a⟩) := by
  rw [place, List.foldl_append, place]

theorem dots_notMem_foldl_advance {segments : List String} {folder : Place} (h : ".." ∉ folder) :
    ".." ∉ segments.foldl advance folder := by
  induction segments generalizing folder with
  | nil => exact h
  | cons segment rest ih =>
    refine ih ?_
    unfold advance
    split
    · exact fun hm => h (List.mem_of_mem_dropLast hm)
    · next hne => simp [h, Ne.symm hne]

theorem mem_of_mem_foldl_advance {name : String} {segments : List String} {folder : Place}
    (h : name ∈ segments.foldl advance folder) : name ∈ folder ∨ name ∈ segments := by
  induction segments generalizing folder with
  | nil => exact .inl h
  | cons segment rest ih =>
    rcases ih h with h | h
    · unfold advance at h
      split at h
      · exact .inl (List.mem_of_mem_dropLast h)
      · rcases List.mem_append.1 h with h | h
        · exact .inl h
        · exact .inr (List.mem_singleton.1 h ▸ List.mem_cons_self)
    · exact .inr (List.mem_cons_of_mem _ h)

theorem foldl_advance_of_notMem {segments : List String} (h : ".." ∉ segments) (folder : Place) :
    segments.foldl advance folder = folder ++ segments := by
  induction segments generalizing folder with
  | nil => simp
  | cons segment rest ih =>
    rw [List.mem_cons, not_or] at h
    rw [List.foldl_cons, ih h.2, advance, if_neg (Ne.symm h.1), List.append_assoc,
      List.singleton_append]

/-- An entry beside the target of a path has a place beside the target's. -/
theorem place_normalized_join (p : Path) {name : String} (h : name ≠ "..") :
    (p.normalized.join ⟨0, [name]⟩).place = p.place ++ [name] := by
  have hjoin : (p.normalized.join ⟨0, [name]⟩).place =
      [name].foldl advance (p.place.foldl advance []) :=
    place_append p.slashes p.place [name]
  have hp : p.place.foldl advance [] = p.place :=
    foldl_advance_of_notMem (dots_notMem_foldl_advance List.not_mem_nil) []
  rw [hjoin, hp, List.foldl_cons, List.foldl_nil, advance, if_neg h]

end Path

namespace Files

variable {t : Tree} {p : Path}

def Spot.place : Spot → Place
  | .named folder name => folder ++ [name]
  | .reached folder => folder

theorem enter_ok {folder next : Place} {segment : String} (h : enter t folder segment = .ok next) :
    next = Path.advance folder segment := by
  rw [enter] at h
  unfold Path.advance
  split
  · next hs => simpa [hs] using h.symm
  · next hs =>
    rw [if_neg hs] at h
    split at h <;> simp_all

theorem walk_ok {folder next : Place} {segments : List String}
    (h : walk t folder segments = .ok next) : next = segments.foldl Path.advance folder := by
  induction segments generalizing folder with
  | nil => exact (Except.ok.inj h).symm
  | cons segment rest ih =>
    unfold walk at h
    split at h
    · next hs => rw [ih h, enter_ok hs, List.foldl_cons]
    · cases h

theorem locateSegments_ok {segments : List String} {spot : Spot}
    (h : locateSegments t segments = .ok spot) :
    spot.place = segments.foldl Path.advance [] := by
  unfold locateSegments at h
  split at h
  · cases h
  · next folder hw =>
    obtain rfl := walk_ok hw
    obtain rfl | ⟨init, last, rfl⟩ := List.eq_nil_or_concat' segments
    · rw [← Except.ok.inj h]
      rfl
    · rw [List.dropLast_concat, List.getLast?_concat] at h
      rw [List.foldl_concat, Path.advance]
      split at h
      · next hl => cases hl
      · next hl =>
        rw [← Except.ok.inj h, if_pos (Option.some.inj hl)]
        rfl
      · next hne hl =>
        obtain rfl := Option.some.inj hl
        rw [← Except.ok.inj h, if_neg hne]
        rfl

theorem locate_eq_ok_iff {spot : Spot} :
    locate t p = .ok spot ↔
      ('\x00' ∉ p.text.toList ∧ p.text.utf8ByteSize < pathBytesLimit) ∧
        locateSegments t p.segments = .ok spot := by
  simp only [locate, List.contains_iff_mem]
  by_cases hn : '\x00' ∈ p.text.toList
  · simp [hn]
  · by_cases hb : pathBytesLimit ≤ p.text.utf8ByteSize
    · simp [hn, hb, Nat.not_lt.2 hb]
    · cases locateSegments t p.segments <;> simp [hn, hb, Nat.lt_of_not_le hb, Except.mapError]

theorem locate_ok {spot : Spot} (h : locate t p = .ok spot) : spot.place = p.place :=
  locateSegments_ok (locate_eq_ok_iff.1 h).2

theorem find_ok {folder : Place} {name : String} {found : Option Entry}
    (h : find t folder name = .ok found) : t.get? (folder ++ [name]) = found := by
  unfold find at h
  split at h
  · cases h
  · exact Except.ok.inj h

/-- Whether a name is too long does not depend on the tree. -/
theorem find_of_find_ok {folder : Place} {name : String} {found : Option Entry}
    (h : find t folder name = .ok found) (s : Tree) :
    find s folder name = .ok (s.get? (folder ++ [name])) := by
  unfold find at h ⊢
  split at h
  · cases h
  · next hlength => rw [if_neg hlength]

theorem vacancy_eq_ok_iff {place : Place} :
    vacancy t p = .ok place ↔
      ∃ folder name, locate t p = .ok (.named folder name) ∧ find t folder name = .ok none ∧
        folder ++ [name] = place := by
  rw [vacancy]
  constructor
  · intro h
    split at h
    · cases h
    · cases h
    · next folder name hl =>
      cases hf : find t folder name with
      | error why => simp [hf] at h
      | ok found =>
        rw [hf] at h
        cases found with
        | some e => cases h
        | none => exact ⟨folder, name, hl, hf, Except.ok.inj h⟩
  · rintro ⟨folder, name, hl, hf, rfl⟩
    rw [hl]
    dsimp only
    rw [hf]

/-- A vacancy is the place of the path, and nothing stands there. -/
theorem vacancy_ok {place : Place} (h : vacancy t p = .ok place) :
    place = p.place ∧ place ≠ [] ∧ t.get? place = none := by
  obtain ⟨folder, name, hl, hf, rfl⟩ := vacancy_eq_ok_iff.1 h
  exact ⟨locate_ok hl, List.append_ne_nil_of_right_ne_nil _ (List.cons_ne_nil _ _), find_ok hf⟩

theorem replaceable_eq_ok_iff {place : Place} :
    replaceable t p = .ok place ↔
      ∃ folder name found, locate t p = .ok (.named folder name) ∧
        find t folder name = .ok found ∧ found ≠ some .folder ∧ folder ++ [name] = place := by
  rw [replaceable]
  constructor
  · intro h
    split at h
    · cases h
    · cases h
    · next folder name hl =>
      cases hf : find t folder name with
      | error why => simp [hf] at h
      | ok found =>
        rw [hf] at h
        refine ⟨folder, name, found, hl, hf, ?_⟩
        split at h <;> simp_all
  · rintro ⟨folder, name, found, hl, hf, hne, rfl⟩
    rw [hl]
    dsimp only
    rw [hf]
    split <;> simp_all

/-- What can be replaced is at the place of the path, and is no folder. -/
theorem replaceable_ok {place : Place} (h : replaceable t p = .ok place) :
    place = p.place ∧ place ≠ [] ∧ t.get? place ≠ some .folder := by
  obtain ⟨folder, name, found, hl, hf, hne, rfl⟩ := replaceable_eq_ok_iff.1 h
  exact ⟨locate_ok hl, List.append_ne_nil_of_right_ne_nil _ (List.cons_ne_nil _ _),
    find_ok hf ▸ hne⟩

/-- The content of the file that a path leads to, if it leads to one. -/
def readFile (t : Tree) (p : Path) : Option ByteArray :=
  match entryAt t p with
  | .ok (some (_, .file content)) => some content
  | _ => none

theorem readFile_eq_some_iff {content : ByteArray} :
    readFile t p = some content ↔
      ∃ folder name, locate t p = .ok (.named folder name) ∧
        find t folder name = .ok (some (.file content)) := by
  rw [readFile, entryAt]
  constructor
  · intro h
    split at h
    · next place c he =>
      split at he
      · cases he
      · cases he
      · next folder name hl =>
        split at he
        · cases he
        · next found hf =>
          refine ⟨folder, name, hl, ?_⟩
          cases found <;> simp_all
    · cases h
  · rintro ⟨folder, name, hl, hf⟩
    rw [hl]
    simp [hf]

/-- What is read along a path stands at the place of the path. -/
theorem content?_of_readFile {content : ByteArray} (h : readFile t p = some content) :
    t.content? p.place = some content := by
  obtain ⟨folder, name, hl, hf⟩ := readFile_eq_some_iff.1 h
  rw [← locate_ok hl, Tree.content?, Spot.place, find_ok hf]

section Folders

variable {s : Tree}

/-- A tree in which every folder of another tree is still there. -/
def KeepsFolders (t s : Tree) : Prop :=
  ∀ q, t.get? q = some .folder → s.get? q = some .folder

theorem enter_of_keepsFolders (h : KeepsFolders t s) {folder next : Place} {segment : String}
    (he : enter t folder segment = .ok next) : enter s folder segment = .ok next := by
  unfold enter at he ⊢
  split
  · next hs => simpa [hs] using he
  · next hs =>
    rw [if_neg hs] at he
    split at he
    · cases he
    · next hf =>
      rw [find_of_find_ok hf s, h _ (find_ok hf)]
      exact he
    · cases he
    · cases he

theorem walk_of_keepsFolders (h : KeepsFolders t s) {folder next : Place} {segments : List String}
    (hw : walk t folder segments = .ok next) : walk s folder segments = .ok next := by
  induction segments generalizing folder with
  | nil => exact hw
  | cons segment rest ih =>
    unfold walk at hw ⊢
    split at hw
    · next he =>
      rw [enter_of_keepsFolders h he]
      exact ih hw
    · cases hw

theorem locate_of_keepsFolders (h : KeepsFolders t s) {spot : Spot} (hl : locate t p = .ok spot) :
    locate s p = .ok spot := by
  obtain ⟨hp, hl⟩ := locate_eq_ok_iff.1 hl
  refine locate_eq_ok_iff.2 ⟨hp, ?_⟩
  rw [locateSegments] at hl ⊢
  cases hw : walk t [] p.segments.dropLast with
  | error why => simp [hw] at hl
  | ok folder => rwa [walk_of_keepsFolders h hw, ← hw]

/-- While the folders stay, what is read along a path is what stands at its place. -/
theorem readFile_of_locate (h : KeepsFolders t s) {folder : Place} {name : String}
    {found : Option Entry} (hl : locate t p = .ok (.named folder name))
    (hf : find t folder name = .ok found) : readFile s p = s.content? p.place := by
  have hls := locate_of_keepsFolders h hl
  rw [readFile, entryAt, hls, ← locate_ok hls, Tree.content?, Spot.place]
  dsimp only
  rw [find_of_find_ok hf s]
  cases s.get? (folder ++ [name]) with
  | none => rfl
  | some e => cases e <;> rfl

theorem readFile_of_keepsFolders (h : KeepsFolders t s) {old : ByteArray}
    (hr : readFile t p = some old) : readFile s p = s.content? p.place := by
  obtain ⟨folder, name, hl, hf⟩ := readFile_eq_some_iff.1 hr
  exact readFile_of_locate h hl hf

theorem readFile_of_replaceable (h : KeepsFolders t s) {place : Place}
    (hr : replaceable t p = .ok place) : readFile s p = s.content? p.place := by
  obtain ⟨folder, name, found, hl, hf, -⟩ := replaceable_eq_ok_iff.1 hr
  exact readFile_of_locate h hl hf

end Folders

end Files

end DartModels
