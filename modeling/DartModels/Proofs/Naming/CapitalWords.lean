import DartModels.Proofs.Naming.Casing

/-! # Capital words

Type case gives every word of a name a capital and runs the words together. A first word that is
given its capital twice keeps it, since no upper case starts with a character that has another
upper case.
-/

namespace DartModels

open Naming

namespace Text

section Tables

variable {r s : CaseRun} {n : Nat}

/-- Whether `s` has none of the characters that `r` leads to: the two are apart, or `s` has every
second character only, and not those. -/
def CaseRun.misses (r s : CaseRun) : Bool :=
  bif Nat.ble s.first (r.last + r.shift).toNat then
    bif Nat.ble (r.first + r.shift).toNat s.last then
      s.step % 2 == 0 && (r.step % 2 == 0 || r.first == r.last) &&
        Nat.ble 1 (r.first + r.shift).toNat && ((r.first + r.shift).toNat + s.first) % 2 == 1
    else true
  else true

theorem CaseRun.contains_iff : r.contains n = true ↔
    (r.first ≤ n ∧ n ≤ r.last) ∧ r.step ∣ n - r.first := by
  simp only [contains, Bool.and_eq_true, decide_eq_true_eq, beq_iff_eq, Nat.dvd_iff_mod_eq_zero]

theorem CaseRun.contains_of_misses (h : r.misses s = true) (hn : r.contains n = true) :
    s.contains (n + r.shift).toNat = false := by
  obtain ⟨⟨hfirst, hlast⟩, hstep⟩ := contains_iff.1 hn
  refine eq_false_of_ne_true fun hs => ?_
  obtain ⟨⟨hsfirst, hslast⟩, hsstep⟩ := contains_iff.1 hs
  have hbelow : Nat.ble s.first (r.last + r.shift).toNat = true := Nat.ble_eq_true_of_le (by omega)
  have habove : Nat.ble (r.first + r.shift).toNat s.last = true := Nat.ble_eq_true_of_le (by omega)
  rw [misses, hbelow, habove, cond_true, cond_true] at h
  simp only [Bool.and_eq_true, Bool.or_eq_true, beq_iff_eq, Nat.ble_eq] at h
  obtain ⟨⟨⟨hseven, hreven⟩, hpos⟩, hodd⟩ := h
  have hspaced : 2 ∣ (n + r.shift).toNat - s.first :=
    Nat.dvd_trans (Nat.dvd_of_mod_eq_zero hseven) hsstep
  rcases hreven with hreven | hsingle
  · have hpaced : 2 ∣ n - r.first := Nat.dvd_trans (Nat.dvd_of_mod_eq_zero hreven) hstep
    omega
  · omega

/-- One character, as a run. -/
def CaseRun.single (n : Nat) : CaseRun where
  first := n
  last := n
  step := 2
  shift := 0

theorem CaseRun.contains_single (n : Nat) : (CaseRun.single n).contains n = true :=
  contains_iff.2 ⟨⟨Nat.le_refl n, Nat.le_refl n⟩, by simp [single]⟩

theorem upperRuns_miss : (upperRuns.all fun s => upperRuns.all fun r => r.misses s) = true := by
  decide +kernel

theorem upperRuns_miss_expansions :
    (upperExpansions.all fun e => upperRuns.all fun r => r.misses (.single e.1)) = true := by
  decide +kernel

theorem upperExpansions_settled :
    ∀ e ∈ upperExpansions, ∃ n ∈ e.2.head?, upper (Char.ofNat n) = [Char.ofNat n] := by
  decide +kernel

end Tables

section Upper

variable {c d : Char}

theorem upper_eq_self (hruns : ∀ r ∈ upperRuns, r.contains c.toNat = false)
    (hexpansions : ∀ e ∈ upperExpansions, (CaseRun.single e.1).contains c.toNat = false) :
    upper c = [c] := by
  have hexpansion : (upperExpansions.find? fun e => e.1 == c.toNat) = none := by
    refine List.find?_eq_none.2 fun e he hfound => ?_
    have hfree := hexpansions e he
    rw [beq_iff_eq.1 hfound, CaseRun.contains_single] at hfree
    cases hfree
  have hrun : (upperRuns.find? fun r => r.contains c.toNat) = none :=
    List.find?_eq_none.2 fun r hr => Bool.eq_false_iff.1 (hruns r hr)
  rw [upper, expandIn, hexpansion]
  dsimp only
  rw [shiftIn, hrun]

/-- A run leads to characters that have no other upper case. -/
theorem upper_of_run {r : CaseRun} (hr : r ∈ upperRuns) (hc : r.contains c.toNat = true)
    (hd : Char.ofNat (c.toNat + r.shift).toNat = d) : upper d = [d] := by
  by_cases hnul : d = '\x00'
  · rw [hnul]
    decide +kernel
  · have hcode := eq_of_ofNat_eq hd hnul
    refine upper_eq_self (fun s hs => ?_) fun e he => ?_ <;> rw [← hcode]
    · have hmiss := List.all_eq_true.1 upperRuns_miss s hs
      exact CaseRun.contains_of_misses (List.all_eq_true.1 hmiss r hr) hc
    · have hmiss := List.all_eq_true.1 upperRuns_miss_expansions e he
      exact CaseRun.contains_of_misses (List.all_eq_true.1 hmiss r hr) hc

/-- An upper case has a character in front, which is its own upper case. -/
theorem exists_upper_eq_cons (c : Char) : ∃ d rest, upper c = d :: rest ∧ upper d = [d] := by
  cases hexpansion : upperExpansions.find? fun e => e.1 == c.toNat with
  | some e =>
    obtain ⟨n, hn, hsettled⟩ := upperExpansions_settled e (List.mem_of_find?_eq_some hexpansion)
    obtain ⟨others, hothers⟩ := List.head?_eq_some_iff.1 hn
    refine ⟨Char.ofNat n, others.map Char.ofNat, ?_, hsettled⟩
    rw [upper, expandIn, hexpansion]
    dsimp only
    rw [hothers, List.map_cons]
  | none =>
    have hupper : upper c = [shiftIn upperRuns c] := by
      rw [upper, expandIn, hexpansion]
    refine ⟨_, [], hupper, ?_⟩
    rw [shiftIn] at hupper ⊢
    cases hrun : upperRuns.find? fun r => r.contains c.toNat with
    | none =>
      rw [hrun] at hupper
      exact hupper
    | some r =>
      have hfound := List.find?_some hrun
      exact upper_of_run (List.mem_of_find?_eq_some hrun) hfound rfl

/-- What is put together of words with capitals starts with a capital. -/
theorem upperFirst_flatMap (words : List (List Char)) :
    upperFirst (words.flatMap upperFirst) = words.flatMap upperFirst := by
  induction words with
  | nil => rfl
  | cons word rest ih =>
    cases word with
    | nil => exact ih
    | cons c tail =>
      obtain ⟨d, others, hupper, hsettled⟩ := exists_upper_eq_cons c
      rw [List.flatMap_cons, upperFirst, hupper, List.cons_append, List.cons_append, upperFirst,
        hsettled, List.singleton_append]

end Upper

end Text

namespace Naming

open Text

theorem camelFrom_eq (fresh : Bool) (s : List Char) : ∃ word words,
    segments isSeparator s = word :: words ∧ camelFrom fresh s =
      (if fresh then upperFirst word else word) ++ words.flatMap upperFirst := by
  induction s generalizing fresh with
  | nil => exact ⟨[], [], rfl, by cases fresh <;> rfl⟩
  | cons c rest ih =>
    rw [segments, camelFrom]
    split
    · obtain ⟨word, words, hsegments, hcamel⟩ := ih true
      refine ⟨[], _, rfl, ?_⟩
      rw [hsegments, List.flatMap_cons, hcamel, if_pos rfl]
      cases fresh <;> rfl
    · obtain ⟨word, words, hsegments, hcamel⟩ := ih false
      rw [hsegments]
      refine ⟨c :: word, words, rfl, ?_⟩
      rw [hcamel, if_neg Bool.false_ne_true]
      cases fresh <;> simp [upperFirst]

/-- Type case gives a capital to every word between separators, the first one included. -/
theorem typeCase_eq (s : List Char) :
    typeCase s = (segments isSeparator s).flatMap upperFirst := by
  obtain ⟨word, words, hsegments, hcamel⟩ := camelFrom_eq false s
  rw [typeCase, camel, hcamel, hsegments, if_neg Bool.false_ne_true, List.flatMap_cons]
  cases word with
  | nil => exact upperFirst_flatMap words
  | cons c tail => rw [List.cons_append, upperFirst, upperFirst, List.append_assoc]

/-- The words of a name, each with a capital, spell a word of the generated language once the
characters that no identifier holds are left out. -/
def Spells (name word : String) : Prop :=
  ((segments isSeparator name.toList).flatMap upperFirst).filter isIdentifierChar = word.toList

instance (name word : String) : Decidable (Spells name word) :=
  inferInstanceAs (Decidable (_ = _))

/-- A word that can be a type name without any addition to it. -/
structure IsTypeWord (word : String) : Prop where
  isWord : IsWord word.toList
  not_fallback : ¬ "Type".toList <+: word.toList
  not_keyword : word ∉ keywords

variable {name word : String}

theorem underscore_notMem_of_isWord {word : List Char} (h : IsWord word) : '_' ∉ word := by
  obtain ⟨first, rest, rfl, halpha, hrest⟩ := h
  rw [List.mem_cons, not_or]
  exact ⟨fun hfirst => absurd (hfirst ▸ halpha) (by decide),
    fun hmem => absurd (hrest _ hmem) (by decide)⟩

/-- The fallback makes no word that does not start with it. -/
theorem bareIdentifier_eq_iff {fallback name word : List Char} (hword : IsWord word)
    (hfallback : ¬ fallback <+: word) :
    bareIdentifier fallback name = word ↔ name.filter isIdentifierChar = word := by
  obtain ⟨first, rest, rfl, halpha, -⟩ := hword
  unfold bareIdentifier
  split
  · next hkept =>
    rw [hkept]
    refine iff_of_false (fun h => hfallback (h ▸ List.prefix_rfl)) (List.cons_ne_nil _ _).symm
  · next c kept hkept =>
    rw [hkept]
    split
    · next hdigit =>
      refine iff_of_false (fun h => hfallback (h ▸ List.prefix_append _ _)) fun h => ?_
      obtain ⟨rfl, -⟩ := List.cons.inj h
      rw [isDigit_of_isAlpha halpha] at hdigit
      cases hdigit
    · exact Iff.rfl

/-- A name becomes a plain word exactly if it spells it: neither the fallback nor an underscore at
the end can make one. -/
theorem typeName_eq_iff (h : IsTypeWord word) : typeName name = word ↔ Spells name word := by
  have hword (kept : List Char) : String.ofList kept = word ↔ kept = word.toList := by
    rw [← String.toList_inj, String.toList_ofList]
  rw [Spells, ← typeCase_eq, ← bareIdentifier_eq_iff h.isWord h.not_fallback, ← hword, typeName,
    identifier]
  simp only [String.toList_ofList]
  split
  · next hreserved =>
    refine iff_of_false (fun hpushed => underscore_notMem_of_isWord h.isWord ?_) fun hbare => ?_
    · rw [← hpushed, String.toList_push]
      exact List.mem_append_right _ List.mem_cons_self
    · rw [hbare, Bool.or_eq_true, List.contains_iff_mem, List.contains_iff_mem] at hreserved
      exact hreserved.elim h.not_keyword List.not_mem_nil
  · exact Iff.rfl

example : Spells "ſt.ring" "String" ∧
    Spells "deep_collection-equality" "DeepCollectionEquality" := by decide +kernel

/-- The words that a name spells in lower case are those for which its case is lost. -/
theorem wordsAmiss_of_spells (h : IsTypeWord word) (hname : Spells name word)
    (hlower : word.toList.head?.any Char.isLower = true) :
    WordsAmiss upper Char.isLower name := by
  rw [← (typeName_eq_iff h).2 hname] at hlower
  exact isLower_head_typeName_iff.1 hlower

end Naming

end DartModels
