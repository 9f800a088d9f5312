import Mathlib.Data.List.Basic

/-! # Nested brackets

In a properly nested text every bracket has its partner and no two pairs overlap. Read from the
left, it is enough to keep the closing brackets that are still awaited, innermost first.
-/

namespace DartModels.Text

/-- The closing bracket of an opening one. -/
def closing? : Char → Option Char
  | '(' => some ')'
  | '[' => some ']'
  | '\x7b' => some '\x7d'
  | _ => none

def isClosing (c : Char) : Bool :=
  c = ')' || c = ']' || c = '\x7d'

/-- Text whose round, square and curly brackets are properly nested. -/
inductive Nested : List Char → Prop

  | nil : Nested []

  | plain {c : Char} {rest : List Char} : closing? c = none → isClosing c = false →
      Nested rest → Nested (c :: rest)

  | pair {c close : Char} {inside rest : List Char} : closing? c = some close →
      Nested inside → Nested rest → Nested (c :: (inside ++ close :: rest))

/-- What is awaited after one more character, unless a bracket closes that was not awaited. -/
def await (awaited : List Char) (c : Char) : Option (List Char) :=
  match closing? c with
  | some close => some (close :: awaited)
  | none =>
    if isClosing c then
      match awaited with
      | [] => none
      | next :: others => if next = c then some others else none
    else some awaited

/-- What is awaited after a text. -/
def awaitAll (awaited s : List Char) : Option (List Char) :=
  s.foldlM await awaited

variable {c close : Char} {s s' awaited before after more : List Char}

@[simp]
theorem awaitAll_nil (awaited : List Char) : awaitAll awaited [] = some awaited := rfl

theorem awaitAll_cons (awaited : List Char) (c : Char) (s : List Char) :
    awaitAll awaited (c :: s) = (await awaited c).bind fun next => awaitAll next s := rfl

theorem awaitAll_append (awaited s s' : List Char) :
    awaitAll awaited (s ++ s') = (awaitAll awaited s).bind fun next => awaitAll next s' :=
  List.foldlM_append

theorem await_opening (h : closing? c = some close) (awaited : List Char) :
    await awaited c = some (close :: awaited) := by
  simp [await, h]

theorem await_plain (h : closing? c = none) (hc : isClosing c = false) (awaited : List Char) :
    await awaited c = some awaited := by
  simp [await, h, hc]

theorem closing?_of_isClosing (h : isClosing c = true) : closing? c = none := by
  simp only [isClosing, Bool.or_eq_true, decide_eq_true_eq] at h
  rcases h with (rfl | rfl) | rfl <;> rfl

theorem isClosing_of_closing? (h : closing? c = some close) : isClosing close = true := by
  unfold closing? at h
  split at h <;> cases h <;> rfl

theorem await_closing (h : isClosing c = true) (awaited : List Char) :
    await (c :: awaited) c = some awaited := by
  simp [await, closing?_of_isClosing h, h]

/-- Brackets that were awaited before stay awaited below. -/
theorem await_frame (h : await before c = some after) (more : List Char) :
    await (before ++ more) c = some (after ++ more) := by
  unfold await at h ⊢
  split
  · next close hc =>
    rw [hc] at h
    rw [← Option.some.inj h, List.cons_append]
  · next hc =>
    rw [hc] at h
    dsimp only at h
    split
    · next hclosing =>
      rw [if_pos hclosing] at h
      cases before with
      | nil => cases h
      | cons next others =>
        dsimp only [List.cons_append] at h ⊢
        split at h
        · next hn => rw [if_pos hn, Option.some.inj h]
        · cases h
    · next hclosing =>
      rw [if_neg hclosing] at h
      rw [Option.some.inj h]

theorem awaitAll_frame (h : awaitAll before s = some after) (more : List Char) :
    awaitAll (before ++ more) s = some (after ++ more) := by
  induction s generalizing before with
  | nil => rw [Option.some.inj h, awaitAll_nil]
  | cons c rest ih =>
    rw [awaitAll_cons] at h ⊢
    obtain ⟨next, hc, hrest⟩ := Option.bind_eq_some_iff.1 h
    rw [await_frame hc, Option.bind_some, ih hrest]

/-- Nested text between the brackets that are awaited, one after the other. -/
def NestedUntil : List Char → List Char → Prop
  | [], s => Nested s
  | close :: awaited, s =>
    ∃ inside rest, s = inside ++ close :: rest ∧ Nested inside ∧ NestedUntil awaited rest

theorem NestedUntil.plain (h : closing? c = none) (hc : isClosing c = false)
    (hs : NestedUntil awaited s) : NestedUntil awaited (c :: s) := by
  cases awaited with
  | nil => exact .plain h hc hs
  | cons close others =>
    obtain ⟨inside, rest, rfl, hinside, hrest⟩ := hs
    exact ⟨c :: inside, rest, rfl, .plain h hc hinside, hrest⟩

theorem NestedUntil.pair (h : closing? c = some close) (hs : NestedUntil (close :: awaited) s) :
    NestedUntil awaited (c :: s) := by
  obtain ⟨inside, rest, rfl, hinside, hrest⟩ := hs
  cases awaited with
  | nil => exact .pair h hinside hrest
  | cons next others =>
    obtain ⟨inside', rest', rfl, hinside', hrest'⟩ := hrest
    exact ⟨c :: (inside ++ close :: inside'), rest', by simp, .pair h hinside hinside', hrest'⟩

theorem nestedUntil_of_awaitAll (h : awaitAll awaited s = some []) : NestedUntil awaited s := by
  induction s generalizing awaited with
  | nil =>
    rw [Option.some.inj h]
    exact .nil
  | cons c rest ih =>
    rw [awaitAll_cons] at h
    obtain ⟨next, hc, hrest⟩ := Option.bind_eq_some_iff.1 h
    have hnext := ih hrest
    unfold await at hc
    split at hc
    · next close hclosing =>
      obtain rfl := Option.some.inj hc
      exact hnext.pair hclosing
    · next hclosing =>
      split at hc
      · next his =>
        split at hc
        · cases hc
        · next first others =>
          split at hc
          · next hfirst =>
            obtain rfl := Option.some.inj hc
            exact ⟨[], rest, by rw [hfirst, List.nil_append], .nil, hnext⟩
          · cases hc
      · next his =>
        obtain rfl := Option.some.inj hc
        exact hnext.plain hclosing (Bool.eq_false_iff.2 his)

theorem Nested.awaitAll_eq (h : Nested s) (awaited : List Char) :
    awaitAll awaited s = some awaited := by
  induction h generalizing awaited with
  | nil => rfl
  | plain hc hclosing _ ih =>
    rw [awaitAll_cons, await_plain hc hclosing, Option.bind_some, ih]
  | pair hc _ _ ihinside ihrest =>
    rw [awaitAll_cons, await_opening hc, Option.bind_some, awaitAll_append, ihinside,
      Option.bind_some, awaitAll_cons, await_closing (isClosing_of_closing? hc), Option.bind_some,
      ihrest]

/-- A text is properly nested if and only if it closes all that it opens and nothing else. -/
theorem nested_iff : Nested s ↔ awaitAll [] s = some [] :=
  ⟨fun h => h.awaitAll_eq [], nestedUntil_of_awaitAll⟩

instance (s : List Char) : Decidable (Nested s) :=
  decidable_of_iff _ nested_iff.symm

theorem closing?_injective {d : Char} (h : closing? c = some close)
    (hd : closing? d = some close) : d = c := by
  unfold closing? at h hd
  split at h <;> split at hd <;> cases h <;> first | rfl | cases hd

theorem ne_of_closing? {d : Char} (h : closing? c = some close) (hd : isClosing d = true) :
    c ≠ d := by
  rintro rfl
  cases h.symm.trans (closing?_of_isClosing hd)

theorem count_await {d : Char} (hc : closing? c = some close) (h : await before d = some after) :
    before.count close + [d].count c = after.count close + [d].count close := by
  have hclose := isClosing_of_closing? hc
  unfold await at h
  split at h
  · next k hd =>
    have hother : d ≠ close := ne_of_closing? hd hclose
    have hsame : d = c ↔ k = close := by
      constructor
      · rintro rfl
        exact Option.some.inj (hd.symm.trans hc)
      · rintro rfl
        exact closing?_injective hc hd
    rw [← Option.some.inj h, List.count_singleton, List.count_singleton, List.count_cons]
    simp only [beq_iff_eq, hsame, hother, if_false]
    omega
  · next hd =>
    have hopening : d ≠ c := by
      rintro rfl
      cases hd.symm.trans hc
    split at h
    · cases before with
      | nil => cases h
      | cons next others =>
        dsimp only at h
        split at h
        · next hnext =>
          rw [hnext, Option.some.inj h, List.count_singleton, List.count_singleton,
            List.count_cons]
          simp only [beq_iff_eq, hopening, if_false]
          omega
        · cases h
    · next hclosing =>
      have hother : d ≠ close := by
        rintro rfl
        exact hclosing hclose
      rw [Option.some.inj h, List.count_singleton, List.count_singleton]
      simp only [beq_iff_eq, hopening, hother, if_false]

/-- What is awaited tells how many more brackets of a kind a text opens than it closes. -/
theorem count_awaitAll (hc : closing? c = some close) (h : awaitAll before s = some after) :
    before.count close + s.count c = after.count close + s.count close := by
  induction s generalizing before with
  | nil => rw [Option.some.inj h, List.count_nil, List.count_nil]
  | cons d rest ih =>
    rw [awaitAll_cons] at h
    obtain ⟨next, hd, hrest⟩ := Option.bind_eq_some_iff.1 h
    have hfirst := count_await hc hd
    have hothers := ih hrest
    rw [← List.singleton_append, List.count_append, List.count_append]
    omega

/-- Nested text has as many closing brackets of a kind as opening ones. -/
theorem Nested.count_eq (h : Nested s) (hc : closing? c = some close) :
    s.count c = s.count close := by
  have hcount := count_awaitAll hc (nested_iff.1 h)
  simpa only [List.count_nil, Nat.zero_add] using hcount

end DartModels.Text
