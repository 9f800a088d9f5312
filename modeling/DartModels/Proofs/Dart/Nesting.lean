import DartModels.Dart.ClassFile
import DartModels.Proofs.Dart.Stripping
import DartModels.Proofs.Text.Brackets

/-! # Brackets of generated text

What a piece of generated text does to the brackets that are awaited, once literals and comments are
stripped. Pieces are put together by their effects.
-/

namespace DartModels.Dart

open Text

/-- Without its literals and comments, a text takes the awaited closing brackets from `before` to
`after`, whatever text follows. -/
def Turns (s : String) (before after : List Char) : Prop :=
  ∃ kept, (∀ rest, code (s.toList ++ rest) = kept ++ code rest) ∧
    awaitAll before kept = some after

/-- A character that matters neither to stripping nor to nesting. -/
def isFlat (c : Char) : Bool :=
  isPlain c && (closing? c).isNone && !isClosing c

def IsFlat (s : String) : Prop :=
  ∀ c ∈ s.toList, isFlat c = true

instance (s : String) : Decidable (IsFlat s) :=
  decidable_of_iff (s.toList.all isFlat = true) List.all_eq_true

variable {s t : String} {before middle after : List Char}

theorem IsFlat.append (hs : IsFlat s) (ht : IsFlat t) : IsFlat (s ++ t) := by
  intro c hc
  rw [String.toList_append, List.mem_append] at hc
  exact hc.elim (hs c) (ht c)

namespace Turns

theorem append (hs : Turns s before middle) (ht : Turns t middle after) :
    Turns (s ++ t) before after := by
  obtain ⟨kept, hcode, hawait⟩ := hs
  obtain ⟨kept', hcode', hawait'⟩ := ht
  refine ⟨kept ++ kept', fun rest => ?_, ?_⟩
  · rw [String.toList_append, List.append_assoc, hcode, hcode', List.append_assoc]
  · rw [awaitAll_append, hawait, Option.bind_some, hawait']

/-- What else is awaited makes no difference. -/
theorem frame (h : Turns s before after) (more : List Char) :
    Turns s (before ++ more) (after ++ more) := by
  obtain ⟨kept, hcode, hawait⟩ := h
  exact ⟨kept, hcode, awaitAll_frame hawait more⟩

/-- Text that opens and closes nothing for good can stand anywhere. -/
theorem anywhere (h : Turns s [] []) (awaited : List Char) : Turns s awaited awaited :=
  h.frame awaited

theorem awaitAll_code (h : Turns s before after) :
    awaitAll before (code s.toList) = some after := by
  obtain ⟨kept, hcode, hawait⟩ := h
  have hall : code s.toList = kept := by simpa using hcode []
  rw [hall, hawait]

theorem nested (h : Turns s [] []) : Nested (code s.toList) :=
  nested_iff.2 h.awaitAll_code

theorem nil : Turns "" before before :=
  ⟨[], fun _ => rfl, rfl⟩

end Turns

/-- Text without quotes and slashes is read bracket by bracket. -/
def plainTurn? (before : List Char) (s : String) : Option (List Char) :=
  if s.toList.all isPlain then awaitAll before s.toList else none

theorem turns_plain (h : plainTurn? before s = some after) : Turns s before after := by
  unfold plainTurn? at h
  split at h
  · next hplain => exact ⟨s.toList, code_plain_append (List.all_eq_true.1 hplain), h⟩
  · cases h

theorem isFlat_iff {c : Char} :
    isFlat c = true ↔ isPlain c = true ∧ closing? c = none ∧ isClosing c = false := by
  simp [isFlat, and_assoc]

theorem awaitAll_flat {s : List Char} (h : ∀ c ∈ s, isFlat c = true) (awaited : List Char) :
    awaitAll awaited s = some awaited := by
  induction s with
  | nil => rfl
  | cons c rest ih =>
    obtain ⟨hc, hrest⟩ := List.forall_mem_cons.1 h
    obtain ⟨-, hopening, hclosing⟩ := isFlat_iff.1 hc
    rw [awaitAll_cons, await_plain hopening hclosing, Option.bind_some, ih hrest]

theorem IsFlat.turns (h : IsFlat s) (awaited : List Char) : Turns s awaited awaited :=
  ⟨s.toList, code_plain_append fun c hc => (isFlat_iff.1 (h c hc)).1, awaitAll_flat h awaited⟩

/-- A flat name between two texts. -/
theorem IsFlat.turns_between {first last : String} (h : IsFlat s)
    (hfirst : plainTurn? before first = some middle)
    (hlast : plainTurn? middle last = some after) : Turns (first ++ s ++ last) before after :=
  ((turns_plain hfirst).append (h.turns middle)).append (turns_plain hlast)

/-- A literal is stripped, whatever it stands for. -/
theorem turns_quote (s : String) (awaited : List Char) : Turns (quote s) awaited awaited := by
  refine ⟨[], fun rest => ?_, rfl⟩
  rw [quote, String.toList_ofList, code_stringLiteral_append, List.nil_append]

theorem turns_block (h : '"' ∉ s.toList) (awaited : List Char) :
    Turns ("\"\"\"" ++ s ++ "\"\"\"") awaited awaited := by
  refine ⟨[], fun rest => ?_, rfl⟩
  have hblock := code_block_append h rest
  simpa using hblock

theorem turns_comment (h : '\n' ∉ s.toList) (awaited : List Char) :
    Turns ("//" ++ s ++ "\n") awaited awaited := by
  refine ⟨['\n'], fun rest => ?_, rfl⟩
  have hcomment := code_comment_append h rest
  simpa using hcomment

/-- A quote without a partner makes no difference to the rest of its line. -/
theorem turns_unclosed (h : ∀ c ∈ s.toList, c ∉ ['\'', '\\', '\n'])
    (hs : Turns (s ++ "\n") before after) : Turns ("'" ++ s ++ "\n") before after := by
  obtain ⟨kept, hcode, hawait⟩ := hs
  refine ⟨'\'' :: kept, fun rest => ?_, ?_⟩
  · have hline := hcode rest
    simp only [String.toList_append, List.append_assoc] at hline ⊢
    exact (code_unclosed_append h rest).trans (congrArg _ hline)
  · rw [awaitAll_cons, await_plain rfl rfl, Option.bind_some, hawait]

section Lines

variable {first : String} {upper lower : List String}

theorem Turns.lines (h : Turns (unlines upper) before middle)
    (hlower : Turns (unlines lower) middle after) :
    Turns (unlines (upper ++ lower)) before after := by
  rw [unlines_append]
  exact h.append hlower

theorem Turns.cons (h : Turns first before middle)
    (hlower : Turns (unlines lower) middle after) :
    Turns (unlines (first :: lower)) before after := by
  rw [unlines_cons]
  exact (h.append (turns_plain rfl)).append hlower

theorem Turns.line (h : Turns first before after) : Turns (unlines [first]) before after :=
  h.cons .nil

theorem turns_unlines_of_forall (h : ∀ line ∈ upper, Turns line [] []) (awaited : List Char) :
    Turns (unlines upper) awaited awaited := by
  induction upper with
  | nil => exact .nil
  | cons first rest ih =>
    obtain ⟨hfirst, hrest⟩ := List.forall_mem_cons.1 h
    exact (hfirst.anywhere awaited).cons (ih hrest)

end Lines

end DartModels.Dart
