import DartModels.Proofs.Files.Places
import Mathlib.Data.List.Nodup
import Mathlib.Data.List.Perm.Subperm

/-! # Temporary files

A temporary file gets a place of its own beside its target. Numbers do not run out, so it gets one
whatever else stands there, and it gets one again while the folders stay.
-/

namespace DartModels.Files

variable {t s : Tree} {target : Path} {place : Place}

section Names

theorem ofDigitChars_serial (n : Nat) : Nat.ofDigitChars 10 (serial n).toList 0 = n := by
  simp [serial, Nat.ofDigitChars_append]

theorem serial_injective : Function.Injective serial := by
  intro n m h
  rw [← ofDigitChars_serial n, h, ofDigitChars_serial]

theorem toList_temporaryName (name : String) (n : Nat) :
    (temporaryName name n).toList =
      ".".toList ++ name.toList ++ ".".toList ++ (serial n).toList ++ ".tmp".toList := by
  simp [temporaryName, toString, String.toList_append]

theorem temporaryName_injective (name : String) : Function.Injective (temporaryName name) := by
  intro n m h
  have hlist := congrArg String.toList h
  rw [toList_temporaryName, toList_temporaryName, List.append_left_inj,
    List.append_right_inj] at hlist
  exact serial_injective (String.toList_injective hlist)

theorem length_lt_temporaryName (name : String) (n : Nat) :
    name.length + 2 < (temporaryName name n).length := by
  have hdot : ".".length = 1 := rfl
  have hend : ".tmp".length = 4 := rfl
  have h : (temporaryName name n).length =
      ".".length + name.length + ".".length + (serial n).length + ".tmp".length := by
    simp [temporaryName, toString, String.length_append]
  omega

theorem temporaryName_ne_dots (name : String) (n : Nat) : temporaryName name n ≠ ".." := by
  intro h
  have hlength := length_lt_temporaryName name n
  rw [h] at hlength
  exact absurd hlength (Nat.not_lt.2 (Nat.le_add_left _ _))

theorem place_temporaryPath (target : Path) (n : Nat) :
    (temporaryPath target n).place = target.parent.place ++ [temporaryName target.name n] :=
  Path.place_normalized_join _ (temporaryName_ne_dots _ _)

/-- A temporary file is never in its target's place. -/
theorem place_temporaryPath_ne (target : Path) (n : Nat) :
    (temporaryPath target n).place ≠ target.place := by
  rw [place_temporaryPath]
  obtain ⟨slashes, segments⟩ := target
  obtain rfl | ⟨init, last, rfl⟩ := List.eq_nil_or_concat' segments
  · exact List.append_ne_nil_of_right_ne_nil _ (List.cons_ne_nil _ _)
  · have hname : Path.name ⟨slashes, init ++ [last]⟩ = last := by simp [Path.name]
    have hparent : Path.parent ⟨slashes, init ++ [last]⟩ = ⟨slashes, init⟩ := by simp [Path.parent]
    rw [hname, hparent, Path.place_append, List.foldl_cons, List.foldl_nil, Path.advance]
    split
    · -- double dots lead further up, and the temporary file is further down
      intro h
      have hlength := congrArg List.length h
      simp at hlength
      omega
    · intro h
      have hlast : temporaryName last n = last := by simpa using h
      have hlength := length_lt_temporaryName last n
      rw [hlast] at hlength
      omega

end Names

section Numbers

theorem mem_places_of_get? {q : Place} {e : Entry} (hq : q ≠ []) (h : t.get? q = some e) :
    q ∈ t.entries.map (·.1) := by
  by_contra hmem
  have hnone : t.entries.lookup q = none := by
    rw [List.lookup_eq_none_iff]
    intro entry hentry
    have hne : q ≠ entry.1 := by
      rintro rfl
      exact hmem (List.mem_map_of_mem hentry)
    simpa using hne
  rw [Tree.get?, if_neg hq, hnone] at h
  cases h

/-- There are more numbers to try than entries that could be in the way. -/
theorem get?_freeNumber (t : Tree) (folder : Place) (name : String) :
    t.get? (folder ++ [temporaryName name (freeNumber t folder name)]) = none := by
  rw [freeNumber]
  cases hfind : (List.range (t.entries.length + 1)).find? fun n =>
      (t.get? (folder ++ [temporaryName name n])).isNone with
  | some n => simpa using List.find?_some hfind
  | none =>
    rw [List.find?_eq_none] at hfind
    let places := (List.range (t.entries.length + 1)).map fun n => folder ++ [temporaryName name n]
    have hnodup : places.Nodup := by
      refine List.nodup_range.map fun n m h => temporaryName_injective name ?_
      simpa using h
    have hsubset : places ⊆ t.entries.map (·.1) := by
      intro q hq
      obtain ⟨n, hn, rfl⟩ := List.mem_map.1 hq
      obtain ⟨e, he⟩ := Option.ne_none_iff_exists'.1 (by simpa using hfind n hn)
      exact mem_places_of_get? (List.append_ne_nil_of_right_ne_nil _ (List.cons_ne_nil _ _)) he
    have hlength := (List.subperm_of_subset hnodup hsubset).length_le
    simp only [places, List.length_map, List.length_range] at hlength
    omega

end Numbers

theorem reserve_eq_ok_iff :
    reserve t target = .ok place ↔
      ∃ folder name found, locate t (temporaryPath target 0) = .ok (.named folder name) ∧
        find t folder name = .ok found ∧
        place = folder ++ [temporaryName target.name (freeNumber t folder target.name)] := by
  rw [reserve]
  constructor
  · intro h
    split at h
    · cases h
    · cases h
    · next folder name hl =>
      cases hf : find t folder name with
      | error why => simp [hf] at h
      | ok found =>
        rw [hf] at h
        exact ⟨folder, name, found, hl, hf, (Except.ok.inj h).symm⟩
  · rintro ⟨folder, name, found, hl, hf, rfl⟩
    rw [hl]
    dsimp only
    rw [hf]

/-- Nothing stands at a place that is reserved, and it is beside the target. -/
theorem reserve_ok (h : reserve t target = .ok place) :
    place ≠ [] ∧ t.get? place = none ∧ place ≠ target.place := by
  obtain ⟨folder, name, found, hl, -, rfl⟩ := reserve_eq_ok_iff.1 h
  have hspot : folder ++ [name] = target.parent.place ++ [temporaryName target.name 0] := by
    rw [← place_temporaryPath, ← locate_ok hl, Spot.place]
  obtain ⟨rfl, -⟩ := List.append_inj' hspot rfl
  refine ⟨List.append_ne_nil_of_right_ne_nil _ (List.cons_ne_nil _ _), get?_freeNumber _ _ _, ?_⟩
  rw [← place_temporaryPath]
  exact place_temporaryPath_ne target _

/-- What could be reserved once can be reserved again while the folders stay. -/
theorem exists_reserve_of_keepsFolders (h : KeepsFolders t s) (hr : reserve t target = .ok place) :
    ∃ other, reserve s target = .ok other := by
  obtain ⟨folder, name, found, hl, hf, -⟩ := reserve_eq_ok_iff.1 hr
  exact ⟨_, reserve_eq_ok_iff.2
    ⟨folder, name, _, locate_of_keepsFolders h hl, find_of_find_ok hf s, rfl⟩⟩

end DartModels.Files
