import DartModels.Proofs.Naming.CapitalWords
import Mathlib.Data.List.Chain
import Mathlib.Data.List.Pairwise

/-! # The case of the first character

Type case and field case run the same words together and differ in the case of the first character.
The upper case of a letter that was put in lower case is its own upper case again, except for six
letters that share their lower case with another one, and some letters have an upper case of several
characters. Those two kinds of letters are the only ones for which the difference is not one of the
first character alone.
-/

namespace DartModels

open Naming

namespace Text

/-- The letters whose lower case has another letter as its upper case: İ, ϴ, ẞ, and the signs for
ohm, kelvin and angstrom. -/
def oneWay : List Char :=
  ['\u0130', '\u03f4', '\u1e9e', '\u2126', '\u212a', '\u212b']

section Tables

variable {r s : CaseRun} {n : Nat}

/-- Whether all that `r` leads to are characters of `s`. -/
def CaseRun.landsIn (r s : CaseRun) : Bool :=
  let first := (r.first + r.shift).toNat
  let last := (r.last + r.shift).toNat
  bif Nat.ble s.first first then
    bif Nat.ble last s.last then
      Nat.ble 1 first && (Nat.ble last 0xD7FF || (Nat.ble 0xE000 first && Nat.ble last 0x10FFFF)) &&
        r.step % s.step == 0 && (first - s.first) % s.step == 0
    else false
  else false

theorem CaseRun.contains_of_landsIn (h : r.landsIn s = true) (hn : r.contains n = true) :
    s.contains (n + r.shift).toNat = true ∧ (n + r.shift).toNat.isValidChar ∧ 0 ≤ n + r.shift := by
  simp only [landsIn, Bool.cond_false_right, Bool.and_eq_true, Bool.or_eq_true, Nat.ble_eq,
    beq_iff_eq] at h
  obtain ⟨hfirst, hlast, ⟨⟨hpos, hvalid⟩, hstep⟩, hstart⟩ := h
  obtain ⟨⟨hrfirst, hrlast⟩, hn⟩ := contains_iff.1 hn
  have hsplit : (n + r.shift).toNat - s.first =
      (n - r.first) + ((r.first + r.shift).toNat - s.first) := by omega
  refine ⟨contains_iff.2 ⟨⟨by omega, by omega⟩, ?_⟩, ?_, by omega⟩
  · rw [hsplit]
    exact Nat.dvd_add (Nat.dvd_trans (Nat.dvd_of_mod_eq_zero hstep) hn)
      (Nat.dvd_of_mod_eq_zero hstart)
  · rw [Nat.isValidChar]
    omega

/-- The characters of a run. -/
def CaseRun.members (r : CaseRun) : List Nat :=
  (List.range ((r.last - r.first) / r.step + 1)).map fun k => r.first + k * r.step

theorem CaseRun.mem_members (h : r.contains n = true) : n ∈ r.members := by
  obtain ⟨⟨hfirst, hlast⟩, hstep⟩ := contains_iff.1 h
  refine List.mem_map.2 ⟨(n - r.first) / r.step, List.mem_range.2 ?_, ?_⟩
  · exact Nat.lt_succ_of_le (Nat.div_le_div_right (Nat.sub_le_sub_right hlast _))
  · rw [Nat.div_mul_cancel hstep]
    omega

/-- Whether a run leaves a character out. -/
def CaseRun.skips (r : CaseRun) (n : Nat) : Bool :=
  bif Nat.ble r.first n then bif Nat.ble n r.last then (n - r.first) % r.step != 0 else true
  else true

theorem CaseRun.contains_of_skips (h : r.skips n = true) : r.contains n = false := by
  refine eq_false_of_ne_true fun hn => ?_
  obtain ⟨⟨hfirst, hlast⟩, hstep⟩ := contains_iff.1 hn
  rw [skips, Nat.ble_eq_true_of_le hfirst, Nat.ble_eq_true_of_le hlast, cond_true, cond_true,
    Nat.mod_eq_zero_of_dvd hstep] at h
  cases h

/-- One run stands wholly before another one. -/
def CaseRun.Before (r s : CaseRun) : Prop :=
  r.last < s.first ∧ s.first ≤ s.last

instance (r s : CaseRun) : Decidable (r.Before s) :=
  inferInstanceAs (Decidable (_ ∧ _))

instance : Trans CaseRun.Before CaseRun.Before CaseRun.Before where
  trans := by
    rintro r s t ⟨hrs, hs⟩ ⟨hst, ht⟩
    exact ⟨by omega, ht⟩

theorem upperRuns_ascend : upperRuns.IsChain CaseRun.Before := by
  decide +kernel

theorem upperRuns_skip :
    (upperExpansions.all fun e => upperRuns.all fun r => r.skips e.1) = true := by
  decide +kernel

/-- Lower case and then upper case is the same as upper case. -/
def Returns (c : Char) : Prop :=
  upper (shiftIn lowerRuns c) = upper c

instance (c : Char) : Decidable (Returns c) :=
  inferInstanceAs (Decidable (_ = _))

/-- An upper run leads back from where a lower run leads to, or else the characters of the run are
looked at one by one. -/
theorem lowerRuns_return : (lowerRuns.all fun r =>
    (upperRuns.any fun s => r.landsIn s && s.shift == -r.shift) ||
      r.members.all fun n => Char.ofNat n ∈ oneWay ∨ (upper (Char.ofNat n)).length ≠ 1 ∨
        Returns (Char.ofNat n)) = true := by
  decide +kernel

/-- No upper case leads to one of the six letters. -/
theorem upper_tables_of_oneWay : ∀ d ∈ oneWay, upper d = [d] ∧
    (∀ e ∈ upperExpansions, d.toNat ∉ e.2) ∧
      ∀ r ∈ upperRuns, r.contains (d.toNat - r.shift).toNat = false :=
  List.forall_iff_forall_mem.1 (by decide +kernel)

end Tables

section Letters

variable {c d : Char} {s : CaseRun}

theorem eq_of_contains {r s : CaseRun} {n : Nat} (hr : r ∈ upperRuns) (hs : s ∈ upperRuns)
    (hrn : r.contains n = true) (hsn : s.contains n = true) : r = s := by
  have hapart : upperRuns.Pairwise fun r s => r.Before s ∨ s.Before r :=
    upperRuns_ascend.pairwise.imp Or.inl
  have : Std.Symm fun r s : CaseRun => r.Before s ∨ s.Before r := ⟨fun _ _ => Or.symm⟩
  obtain ⟨⟨hrfirst, hrlast⟩, -⟩ := CaseRun.contains_iff.1 hrn
  obtain ⟨⟨hsfirst, hslast⟩, -⟩ := CaseRun.contains_iff.1 hsn
  by_contra hne
  rcases hapart.forall hr hs hne with ⟨h, -⟩ | ⟨h, -⟩ <;> omega

/-- The run of a character is the only entry of the tables that counts. -/
theorem upper_of_contains (hs : s ∈ upperRuns) (hc : s.contains c.toNat = true) :
    upper c = [Char.ofNat (c.toNat + s.shift).toNat] := by
  have hexpansion : (upperExpansions.find? fun e => e.1 == c.toNat) = none := by
    refine List.find?_eq_none.2 fun e he hfound => ?_
    have hskips := List.all_eq_true.1 (List.all_eq_true.1 upperRuns_skip e he) s hs
    rw [← beq_iff_eq.1 hfound, CaseRun.contains_of_skips hskips] at hc
    cases hc
  rw [upper, expandIn, hexpansion]
  dsimp only
  rw [shiftIn]
  cases hrun : upperRuns.find? fun r => r.contains c.toNat with
  | none => exact absurd hc (List.find?_eq_none.1 hrun s hs)
  | some r =>
    have hfound := List.find?_some hrun
    rw [eq_of_contains (List.mem_of_find?_eq_some hrun) hs hfound hc]

theorem returns_of_notMem (h : c ∉ oneWay) (hsingle : (upper c).length = 1) : Returns c := by
  cases hrun : lowerRuns.find? fun r => r.contains c.toNat with
  | none =>
    have hstays : shiftIn lowerRuns c = c := by rw [shiftIn, hrun]
    rw [Returns, hstays]
  | some r =>
    have hc : r.contains c.toNat = true := by simpa using List.find?_some hrun
    have hshift : shiftIn lowerRuns c = Char.ofNat (c.toNat + r.shift).toNat := by
      rw [shiftIn, hrun]
    have hreturn := List.all_eq_true.1 lowerRuns_return r (List.mem_of_find?_eq_some hrun)
    rw [Bool.or_eq_true] at hreturn
    rcases hreturn with hreturn | hreturn
    · obtain ⟨s, hs, hback⟩ := List.any_eq_true.1 hreturn
      rw [Bool.and_eq_true, beq_iff_eq] at hback
      obtain ⟨hlands, hshifts⟩ := hback
      obtain ⟨hcontains, hvalid, hpos⟩ := CaseRun.contains_of_landsIn hlands hc
      have hcode : (Char.ofNat (c.toNat + r.shift).toNat).toNat = (c.toNat + r.shift).toNat := by
        rw [Char.ofNat, dif_pos hvalid]
        rfl
      have hchar : Char.ofNat ((c.toNat + r.shift).toNat + s.shift).toNat = c := by
        have hnat : ((c.toNat + r.shift).toNat + s.shift).toNat = c.toNat := by omega
        rw [hnat, Char.ofNat_toNat]
      rw [← hcode] at hcontains hchar
      rw [Returns, hshift, upper_of_contains hs hcontains, hchar, upper_of_run hs hcontains hchar]
    · have hmember := List.all_eq_true.1 hreturn c.toNat (CaseRun.mem_members hc)
      rw [decide_eq_true_iff, Char.ofNat_toNat] at hmember
      exact (hmember.resolve_left h).resolve_left (absurd hsingle)

/-- Only the six letters have an upper case that starts with one of them. -/
theorem mem_oneWay_iff {others : List Char} (h : upper c = d :: others) :
    d ∈ oneWay ↔ c ∈ oneWay := by
  constructor
  · intro hd
    obtain ⟨-, hexpansions, hruns⟩ := upper_tables_of_oneWay d hd
    by_contra hc
    have hnul : d ≠ '\x00' := by
      rintro rfl
      exact absurd hd (by decide)
    have hne : c ≠ d := by
      rintro rfl
      exact hc hd
    have hled : d ∈ upper c := by rw [h]; exact List.mem_cons_self
    exact notMem_expandIn hnul hexpansions hruns hne hled
  · intro hc
    obtain ⟨hself, -⟩ := upper_tables_of_oneWay c hc
    rwa [← (List.cons.inj (hself.symm.trans h)).1]

theorem lower_eq_singleton (h : c ≠ '\u0130') : lower c = [shiftIn lowerRuns c] := by
  have hexpansion : (lowerExpansions.find? fun e => e.1 == c.toNat) = none := by
    refine List.find?_eq_none.2 fun e he hfound => h (Char.toNat_inj.1 ?_)
    rw [← beq_iff_eq.1 hfound, List.mem_singleton.1 he]
    rfl
  rw [lower, expandIn, hexpansion]

/-- Two texts that differ in the case of the first character only, which the first of them has in
upper case. -/
def DifferInFirstCase (a b : List Char) : Prop :=
  a.drop 1 = b.drop 1 ∧ a.take 1 = (b.take 1).flatMap upper

instance (a b : List Char) : Decidable (DifferInFirstCase a b) :=
  inferInstanceAs (Decidable (_ ∧ _))

theorem oneWay_not_differInFirstCase : ∀ c ∈ oneWay, ¬ DifferInFirstCase (upper c) (lower c) :=
  List.forall_iff_forall_mem.1 (by decide +kernel)

/-- What follows both texts plays no part. -/
theorem differInFirstCase_append_iff {a b : List Char} (ha : a ≠ []) (hb : b ≠ [])
    (rest : List Char) : DifferInFirstCase (a ++ rest) (b ++ rest) ↔ DifferInFirstCase a b := by
  obtain ⟨c, others, rfl⟩ := List.exists_cons_of_ne_nil ha
  obtain ⟨d, others', rfl⟩ := List.exists_cons_of_ne_nil hb
  simp [DifferInFirstCase]

theorem upper_ne_nil (c : Char) : upper c ≠ [] := by
  obtain ⟨d, others, h, -⟩ := exists_upper_eq_cons c
  rw [h]
  exact List.cons_ne_nil _ _

theorem lower_ne_nil (c : Char) : lower c ≠ [] := by
  by_cases hc : c = '\u0130'
  · rw [hc]
    decide +kernel
  · rw [lower_eq_singleton hc]
    exact List.cons_ne_nil _ _

/-- The two cases of a letter are one character each and belong together, unless it is one of the
six letters or has an upper case of several characters. -/
theorem differInFirstCase_forms_iff (c : Char) :
    DifferInFirstCase (upper c) (lower c) ↔ c ∉ oneWay ∧ (upper c).length = 1 := by
  constructor
  · intro h
    have hc : c ∉ oneWay := fun hmem => oneWay_not_differInFirstCase c hmem h
    have hne : c ≠ '\u0130' := fun heq => hc (heq ▸ List.mem_cons_self)
    have htail : (upper c).drop 1 = [] := by
      rw [h.1, lower_eq_singleton hne, List.drop_one, List.tail_cons]
    have hpos : 0 < (upper c).length := List.length_pos_iff.2 (upper_ne_nil c)
    have hlength : (upper c).length ≤ 1 := List.drop_eq_nil_iff.1 htail
    exact ⟨hc, by omega⟩
  · rintro ⟨hc, hsingle⟩
    have hne : c ≠ '\u0130' := fun heq => hc (heq ▸ List.mem_cons_self)
    have hreturns : upper (shiftIn lowerRuns c) = upper c := returns_of_notMem hc hsingle
    rw [lower_eq_singleton hne]
    constructor
    · rw [List.drop_eq_nil_of_le hsingle.le]
      rfl
    · rw [List.take_of_length_le hsingle.le, List.take_one, List.head?_cons, Option.toList_some,
        List.flatMap_singleton, hreturns]

theorem differInFirstCase_first_iff (c : Char) (rest : List Char) :
    DifferInFirstCase (upperFirst (c :: rest)) (lowerFirst (c :: rest)) ↔
      c ∉ oneWay ∧ (upper c).length = 1 := by
  rw [upperFirst, lowerFirst, differInFirstCase_append_iff (upper_ne_nil c) (lower_ne_nil c),
    differInFirstCase_forms_iff]

end Letters

end Text

namespace Naming

open Text

/-- Separators in front of a name are left out, but the first character after them is put in upper
case. -/
theorem camelFrom_dropWhile (fresh : Bool) (s : List Char) : camelFrom fresh s =
    camelFrom (fresh || s.head?.any isSeparator) (s.dropWhile isSeparator) := by
  induction s generalizing fresh with
  | nil => rfl
  | cons c rest ih =>
    by_cases hc : isSeparator c = true
    · rw [camelFrom, if_pos hc, ih true, List.dropWhile_cons_of_pos hc, List.head?_cons,
        Option.any_some, hc, Bool.true_or, Bool.or_true]
    · rw [List.dropWhile_cons_of_neg hc, List.head?_cons, Option.any_some, Bool.eq_false_iff.2 hc,
        Bool.or_false]

/-- Type case and field case differ in the case of the first character only, unless the first
character that is no separator is one of the six letters that share their lower case, or stands at
the very start and has an upper case of several characters. -/
theorem case_differs_iff (s : List Char) : DifferInFirstCase (typeCase s) (fieldCase s) ↔
    ∀ c ∈ (s.dropWhile isSeparator).head?, c ∉ oneWay ∧
      (s.head?.any isSeparator = true ∨ (upper c).length = 1) := by
  rw [typeCase, fieldCase, camel, camelFrom_dropWhile, Bool.false_or]
  cases hword : s.dropWhile isSeparator with
  | nil => simp [camelFrom, DifferInFirstCase]
  | cons c rest =>
    have hc : isSeparator c = false := by
      have hfirst := List.head?_dropWhile_not isSeparator s
      rwa [hword, List.head?_cons] at hfirst
    have hfirst : (∀ d ∈ (c :: rest).head?, d ∉ oneWay ∧
        (s.head?.any isSeparator = true ∨ (upper d).length = 1)) ↔
        c ∉ oneWay ∧ (s.head?.any isSeparator = true ∨ (upper c).length = 1) := by simp
    rw [hfirst, camelFrom, if_neg (Bool.eq_false_iff.1 hc)]
    cases s.head?.any isSeparator with
    | false =>
      rw [if_neg Bool.false_ne_true, List.singleton_append, differInFirstCase_first_iff]
      simp
    | true =>
      -- the character stands in upper case already, and that is a single character
      obtain ⟨d, others, hupper, hsettled⟩ := exists_upper_eq_cons c
      rw [if_pos rfl, hupper, List.cons_append, differInFirstCase_first_iff, hsettled,
        mem_oneWay_iff hupper]
      simp

/-- The sharp s has two capitals for its upper case, and the kelvin sign shares its lower case. -/
theorem case_differs_further :
    ¬ DifferInFirstCase (typeCase "ßeta".toList) (fieldCase "ßeta".toList) ∧
      ¬ DifferInFirstCase (typeCase ['\u212a']) (fieldCase ['\u212a']) := by
  decide +kernel

end Naming

end DartModels
