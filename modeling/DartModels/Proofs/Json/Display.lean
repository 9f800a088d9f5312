import DartModels.Json.Printer
import DartModels.Proofs.Binary64.Characters
import DartModels.Proofs.Text.Lines

/-! # Display texts stand on one line

Quoted text has an escape for every line break, and nothing else in the display text of a value
could hold one. Only a string that is shown as it is may have more than one line.
-/

namespace DartModels

namespace Text

variable {c : Char}

theorem isLineBreak_hexDigit (n : Nat) : isLineBreak (hexDigit (n % 16)) = false := by
  have hdigits : ∀ m < 16, isLineBreak (hexDigit m) = false := by decide
  exact hdigits (n % 16) (Nat.mod_lt n (by decide))

theorem isLineBreak_of_mem_hex {width n : Nat} (h : c ∈ hex width n) : isLineBreak c = false := by
  induction width generalizing n with
  | zero => cases h
  | succ width ih =>
    rw [hex, List.mem_append, List.mem_singleton] at h
    rcases h with h | rfl
    · exact ih h
    · exact isLineBreak_hexDigit n

/-- An escape names a line break and holds none. -/
theorem isLineBreak_of_mem_quotedChar {mark d : Char} (hmark : isLineBreak mark = false)
    (h : c ∈ quotedChar mark d) : isLineBreak c = false := by
  have hpair {letter : Char} (hletter : isLineBreak letter = false) (h : c ∈ ['\\', letter]) :
      isLineBreak c = false := by
    rcases List.mem_cons.1 h with rfl | h
    · decide
    · rwa [List.mem_singleton.1 h]
  have hcode {letter : Char} {width : Nat} (hletter : isLineBreak letter = false)
      (h : c ∈ '\\' :: letter :: hex width d.toNat) : isLineBreak c = false := by
    rcases List.mem_cons.1 h with rfl | h
    · decide
    · rcases List.mem_cons.1 h with rfl | h
      · exact hletter
      · exact isLineBreak_of_mem_hex h
  unfold quotedChar at h
  split_ifs at h with hself htab hfeed hreturn
  · refine hpair ?_ h
    rcases Bool.or_eq_true_iff.1 hself with hd | hd
    · rwa [decide_eq_true_iff.1 hd]
    · rw [decide_eq_true_iff.1 hd]
      decide
  · exact hpair (by decide) h
  · exact hpair (by decide) h
  · exact hpair (by decide) h
  · rw [List.mem_singleton.1 h, isLineBreak, decide_eq_false hfeed, decide_eq_false hreturn,
      Bool.or_false]
  all_goals exact hcode (by decide) h

theorem oneLine_quoted (s : String) : OneLine (quoted s) := by
  have hmark : isLineBreak (quoteMark s.toList) = false := by
    unfold quoteMark
    split <;> decide
  unfold quoted
  dsimp only
  rw [oneLine_ofList_iff, List.forall_mem_append, List.forall_mem_cons]
  refine ⟨⟨hmark, fun c hc => ?_⟩, List.forall_mem_singleton.2 hmark⟩
  obtain ⟨d, -, hc⟩ := List.mem_flatMap.1 hc
  exact isLineBreak_of_mem_quotedChar hmark hc

end Text

namespace Json

open Text

theorem isLineBreak_of_isNumeralChar {c : Char} (h : Binary64.isNumeralChar c = true) :
    isLineBreak c = false := by
  refine eq_false_of_ne_true fun hbreak => ?_
  rcases (by simpa [isLineBreak] using hbreak : c = '\n' ∨ c = '\r') with rfl | rfl <;>
    exact absurd h (by decide)

theorem oneLine_binary64 (x : Binary64) : OneLine (x.text displayNumbers) := by
  intro c hc
  rcases Binary64.mem_text_cases hc with hnumeral | hnan | hinfinity
  · exact isLineBreak_of_isNumeralChar hnumeral
  · exact (by decide : OneLine displayNumbers.nan) c hnan
  · exact (by decide : OneLine displayNumbers.infinity) c hinfinity

theorem oneLine_commaSeparated {parts : List String} (h : ∀ part ∈ parts, OneLine part) :
    OneLine (commaSeparated parts) :=
  (oneLine_intercalate_iff (by decide)).2 h

mutual

theorem oneLine_nestedDisplay : ∀ v : Json, OneLine v.nestedDisplay
  | .null => by decide
  | .bool b => by cases b <;> decide
  | .int n => fun _ hc => isLineBreak_of_isNumeralChar (Binary64.isNumeralChar_of_mem_int hc)
  | .float x => oneLine_binary64 x
  | .str s => oneLine_quoted s
  | .arr items => by
    have hitems := oneLine_commaSeparated (oneLine_itemDisplays items)
    exact oneLine_append_iff.2 ⟨oneLine_append_iff.2 ⟨by decide, hitems⟩, by decide⟩
  | .obj members => by
    have hmembers := oneLine_commaSeparated (oneLine_memberDisplays members)
    exact oneLine_append_iff.2 ⟨oneLine_append_iff.2 ⟨by decide, hmembers⟩, by decide⟩

theorem oneLine_itemDisplays : ∀ items : List Json, ∀ t ∈ itemDisplays items, OneLine t
  | [] => by simp [itemDisplays]
  | v :: rest => by
    rw [itemDisplays, List.forall_mem_cons]
    exact ⟨oneLine_nestedDisplay v, oneLine_itemDisplays rest⟩

theorem oneLine_memberDisplays :
    ∀ members : List (String × Json), ∀ t ∈ memberDisplays members, OneLine t
  | [] => by simp [memberDisplays]
  | (name, v) :: rest => by
    rw [memberDisplays, List.forall_mem_cons]
    refine ⟨?_, oneLine_memberDisplays rest⟩
    exact oneLine_append_iff.2
      ⟨oneLine_append_iff.2 ⟨oneLine_quoted name, by decide⟩, oneLine_nestedDisplay v⟩

end

/-- A value that is no string is shown on one line. -/
theorem oneLine_display {v : Json} (h : v.isString = false) : OneLine v.display := by
  cases v with
  | str s => cases h
  | null | bool | int | float | arr | obj => exact oneLine_nestedDisplay _

end Json

end DartModels
