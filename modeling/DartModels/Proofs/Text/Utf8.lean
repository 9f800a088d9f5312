import DartModels.Text.Utf8
import Mathlib

/-! # UTF-8 decoding

The decoder inverts the encoding of the standard library. A character under way is completed by the
bytes still due, each of them within its bounds; the bounds that follow a first byte are those that
leave out overlong forms, surrogates and numbers that are no code points.
-/

namespace DartModels.Text.Utf8

/-- The bytes of a text. -/
def encode (s : List Char) : List UInt8 :=
  s.flatMap String.utf8EncodeChar

theorem encode_cons (c : Char) (s : List Char) :
    encode (c :: s) = String.utf8EncodeChar c ++ encode s := rfl

theorem toUTF8_toList (t : String) : t.toUTF8.data.toList = encode t.toList := by
  apply List.toByteArray_inj.1
  rw [String.toUTF8, ← String.utf8Encode_toList (b := t), List.utf8Encode]
  simp [encode]

theorem isValidUTF8_iff {bytes : List UInt8} :
    bytes.toByteArray.IsValidUTF8 ↔ ∃ s, bytes = encode s := by
  constructor
  · rintro ⟨s, hs⟩
    exact ⟨s, List.toByteArray_inj.1 hs⟩
  · rintro ⟨s, rfl⟩
    exact ⟨s, rfl⟩

/-- The byte of the digit at place `k` of a number in base 64. -/
def digitByte (n k : ℕ) : UInt8 :=
  UInt8.ofNat (n / 64 ^ k % 64 + 0x80)

/-- The bytes of the last `k` digits of a number in base 64. -/
def continuation : ℕ → ℕ → List UInt8
  | 0, _ => []
  | k + 1, n => digitByte n k :: continuation k n

theorem digitByte_toNat (n k : ℕ) : (digitByte n k).toNat = n / 64 ^ k % 64 + 0x80 := by
  rw [digitByte, UInt8.toNat_ofNat']
  omega

namespace Pending

def Admits (p : Pending) (b : UInt8) : Prop :=
  p.low ≤ b ∧ b ≤ p.high

instance (p : Pending) (b : UInt8) : Decidable (p.Admits b) :=
  inferInstanceAs (Decidable (_ ∧ _))

def valueWith (p : Pending) (b : UInt8) : ℕ :=
  p.value * 64 + (b.toNat - 0x80)

/-- The character after one of the bytes due. -/
def after (p : Pending) (b : UInt8) : Pending :=
  ⟨p.start, p.first, p.due - 1, 0x80, 0xBF, p.valueWith b⟩

/-- The bytes still due are `tail`, and with them the value is `n`. -/
inductive Completes : Pending → List UInt8 → ℕ → Prop
  | last {p : Pending} {b : UInt8} (hdue : p.due ≤ 1) (hb : p.Admits b) :
      Completes p [b] (p.valueWith b)
  | more {p : Pending} {b : UInt8} {tail : List UInt8} {n : ℕ} (hdue : 1 < p.due)
      (hb : p.Admits b) (h : Completes (p.after b) tail n) : Completes p (b :: tail) n

variable {p : Pending} {b : UInt8} {tail : List UInt8} {n : ℕ}

/-- Stated without the subtraction, which unification would count down. -/
theorem valueWith_add (p : Pending) {b : UInt8} (hb : 0x80 ≤ b.toNat) :
    p.valueWith b + 0x80 = p.value * 64 + b.toNat := by
  unfold valueWith
  omega

theorem after_due (p : Pending) (b : UInt8) : (p.after b).due = p.due - 1 := rfl

theorem after_admits_iff {b c : UInt8} :
    (p.after b).Admits c ↔ 0x80 ≤ c.toNat ∧ c.toNat < 0xC0 := by
  simp only [Admits, after, UInt8.le_iff_toNat_le, UInt8.reduceToNat]
  omega

/-- The next byte due is the next digit. -/
theorem eq_valueWith_iff {k : ℕ} (hb : 0x80 ≤ b.toNat ∧ b.toNat < 0xC0) :
    n / 64 ^ k = p.valueWith b ↔ n / 64 ^ (k + 1) = p.value ∧ b = digitByte n k := by
  have hvalue := p.valueWith_add hb.1
  rw [← UInt8.toNat_inj, digitByte_toNat, Nat.pow_succ, ← Nat.div_div_eq_div_mul]
  omega

theorem completes_last_iff (hdue : p.due = 1) :
    p.Completes tail n ↔ ∃ b, p.Admits b ∧ tail = [b] ∧ n = p.valueWith b := by
  constructor
  · intro h
    cases h with
    | last _ hb => exact ⟨_, hb, rfl, rfl⟩
    | more hmore _ _ => omega
  · rintro ⟨b, hb, rfl, hn⟩
    rw [hn]
    exact .last (Nat.le_of_eq hdue) hb

theorem completes_more_iff (hdue : 1 < p.due) :
    p.Completes tail n ↔ ∃ b rest, p.Admits b ∧ tail = b :: rest ∧
      (p.after b).Completes rest n := by
  constructor
  · intro h
    cases h with
    | last hlast _ => omega
    | more _ hb h => exact ⟨_, _, hb, rfl, h⟩
  · rintro ⟨b, rest, hb, rfl, h⟩
    exact .more hdue hb h

/-- A character under way has the leading digits of its number in base 64, and the bytes due are
the others. -/
theorem completes_iff {k : ℕ} (hdue : p.due = k + 1)
    (hp : ∀ b, p.Admits b → 0x80 ≤ b.toNat ∧ b.toNat < 0xC0) :
    p.Completes tail n ↔ tail = continuation (k + 1) n ∧ n / 64 ^ (k + 1) = p.value ∧
      p.Admits (digitByte n k) := by
  -- one byte less is due after each digit; only the bounds of the first one depend on `p`
  induction k generalizing p tail with
  | zero =>
    rw [completes_last_iff hdue]
    constructor
    · rintro ⟨b, hb, rfl, hn⟩
      have hn' : n / 64 ^ 0 = p.valueWith b := by rw [← hn, Nat.pow_zero, Nat.div_one]
      obtain ⟨hvalue, rfl⟩ := (eq_valueWith_iff (hp b hb)).1 hn'
      exact ⟨rfl, hvalue, hb⟩
    · rintro ⟨rfl, hvalue, hb⟩
      have hn := (eq_valueWith_iff (hp _ hb)).2 ⟨hvalue, rfl⟩
      exact ⟨_, hb, rfl, by rw [← hn, Nat.pow_zero, Nat.div_one]⟩
  | succ k ih =>
    rw [completes_more_iff (by omega)]
    constructor
    · rintro ⟨b, rest, hb, rfl, h⟩
      obtain ⟨rfl, hn, -⟩ := (ih (by rw [after_due]; omega) fun c => after_admits_iff.1).1 h
      obtain ⟨hvalue, rfl⟩ := (eq_valueWith_iff (hp b hb)).1 hn
      exact ⟨rfl, hvalue, hb⟩
    · rintro ⟨rfl, hvalue, hb⟩
      have hn := (eq_valueWith_iff (hp _ hb)).2 ⟨hvalue, rfl⟩
      have hdigit : (p.after (digitByte n (k + 1))).Admits (digitByte n k) := by
        rw [after_admits_iff, digitByte_toNat]
        omega
      exact ⟨_, _, hb, rfl,
        (ih (by rw [after_due]; omega) fun c => after_admits_iff.1).2 ⟨rfl, hn, hdigit⟩⟩

end Pending

variable {p : Pending} {position n : ℕ} {b : UInt8} {tail rest : List UInt8} {s : List Char}

theorem decodeFrom_some_cons (position : ℕ) (p : Pending) (b : UInt8) (rest : List UInt8) :
    decodeFrom position (some p) (b :: rest) =
      if p.Admits b then
        if p.due ≤ 1 then
          (decodeFrom (position + 1) none rest).map (Char.ofNat (p.valueWith b) :: ·)
        else decodeFrom (position + 1) (some (p.after b)) rest
      else .error ⟨p.start, position, p.first, .invalidContinuation⟩ := by
  rw [decodeFrom]
  by_cases hb : p.Admits b
  · have hbounds : (decide (p.low ≤ b) && decide (b ≤ p.high)) = true := by
      simpa [Pending.Admits] using hb
    rw [if_pos hbounds, if_pos hb]
    split
    · next hdue => rw [hdue, if_pos (Nat.zero_le 1)]; rfl
    · next hdue => rw [hdue, if_pos (Nat.le_refl 1)]; rfl
    · next h0 h1 =>
      have hdue : ¬ p.due ≤ 1 := fun h =>
        (Nat.le_one_iff_eq_zero_or_eq_one.1 h).elim h0 h1
      rw [if_neg hdue]
      rfl
  · have hbounds : ¬ (decide (p.low ≤ b) && decide (b ≤ p.high)) = true := by
      simpa [Pending.Admits] using hb
    rw [if_neg hbounds, if_neg hb]

/-- Decoding the bytes that are still due gives the character. -/
theorem decodeFrom_of_completes (h : p.Completes tail n) (position : ℕ) (rest : List UInt8) :
    decodeFrom position (some p) (tail ++ rest) =
      (decodeFrom (position + tail.length) none rest).map (Char.ofNat n :: ·) := by
  induction h generalizing position with
  | last hdue hb =>
    rw [List.singleton_append, decodeFrom_some_cons, if_pos hb, if_pos hdue, List.length_singleton]
  | more hdue hb _ ih =>
    rw [List.cons_append, decodeFrom_some_cons, if_pos hb, if_neg (by omega), ih, List.length_cons]
    congr 2
    omega

/-- A character under way is decoded only if the bytes due are there. -/
theorem exists_completes {bytes : List UInt8} (h : decodeFrom position (some p) bytes = .ok s) :
    ∃ tail n rest, p.Completes tail n ∧ bytes = tail ++ rest := by
  induction bytes generalizing position p with
  | nil => cases h
  | cons b rest ih =>
    rw [decodeFrom_some_cons] at h
    split at h
    · next hb =>
      split at h
      · next hdue => exact ⟨[b], _, rest, .last hdue hb, rfl⟩
      · next hdue =>
        obtain ⟨tail, n, rest, hp, rfl⟩ := ih h
        exact ⟨b :: tail, n, rest, .more (by omega) hb hp, rfl⟩
    · cases h

theorem isAscii_iff : b < 0x80 ↔ b.toNat < 0x80 :=
  UInt8.lt_iff_toNat_lt

/-- The first bytes of longer sequences. -/
theorem exists_ofLead_iff :
    (∃ p, Pending.ofLead position b = some p) ↔ 0xC2 ≤ b.toNat ∧ b.toNat < 0xF5 := by
  simp only [Pending.ofLead, UInt8.lt_iff_toNat_lt, UInt8.reduceToNat]
  split_ifs <;> simp only [Option.some.injEq, exists_eq', exists_false, true_iff,
    false_iff] <;> omega

/-- The bounds that a first byte gives the next one leave out overlong forms, surrogates and numbers
past the last code point. -/
theorem ofLead_cases (h : Pending.ofLead position b = some p) :
    (p.due = 1 ∧ b.toNat < 0xE0 ∧ p.value = b.toNat - 0xC0 ∧
        ∀ c, p.Admits c ↔ 0x80 ≤ c.toNat ∧ c.toNat < 0xC0) ∨
      (p.due = 2 ∧ 0xE0 ≤ b.toNat ∧ b.toNat < 0xF0 ∧ p.value = b.toNat - 0xE0 ∧
        ∀ c, p.Admits c ↔ 0x80 ≤ c.toNat ∧ c.toNat < 0xC0 ∧
          ¬ (b.toNat = 0xE0 ∧ c.toNat < 0xA0) ∧ ¬ (b.toNat = 0xED ∧ 0xA0 ≤ c.toNat)) ∨
      (p.due = 3 ∧ 0xF0 ≤ b.toNat ∧ p.value = b.toNat - 0xF0 ∧
        ∀ c, p.Admits c ↔ 0x80 ≤ c.toNat ∧ c.toNat < 0xC0 ∧
          ¬ (b.toNat = 0xF0 ∧ c.toNat < 0x90) ∧ ¬ (b.toNat = 0xF4 ∧ 0x90 ≤ c.toNat)) := by
  simp only [Pending.ofLead, UInt8.lt_iff_toNat_lt, UInt8.reduceToNat, ← UInt8.toNat_inj] at h
  split at h
  · cases h
  split at h
  · cases h
    refine .inl ⟨rfl, ‹_›, rfl, fun c => ?_⟩
    simp only [Pending.Admits, UInt8.le_iff_toNat_le, UInt8.reduceToNat]
    omega
  split at h
  · cases h
    refine .inr (.inl ⟨rfl, by omega, ‹_›, rfl, fun c => ?_⟩)
    simp only [Pending.Admits, UInt8.le_iff_toNat_le]
    split_ifs <;> simp only [UInt8.reduceToNat] <;> omega
  split at h
  · cases h
    refine .inr (.inr ⟨rfl, by omega, rfl, fun c => ?_⟩)
    simp only [Pending.Admits, UInt8.le_iff_toNat_le]
    split_ifs <;> simp only [UInt8.reduceToNat] <;> omega
  · cases h

theorem bounds_of_admits {c : UInt8} (hp : Pending.ofLead position b = some p)
    (hc : p.Admits c) : 0x80 ≤ c.toNat ∧ c.toNat < 0xC0 := by
  obtain ⟨-, -, -, h⟩ | ⟨-, -, -, -, h⟩ | ⟨-, -, -, h⟩ := ofLead_cases hp
  · exact (h c).1 hc
  · obtain ⟨hmin, hmax, -⟩ := (h c).1 hc
    exact ⟨hmin, hmax⟩
  · obtain ⟨hmin, hmax, -⟩ := (h c).1 hc
    exact ⟨hmin, hmax⟩

/-- The number `n` takes `k` bytes after its first byte `b`. -/
def IsLead (n k : ℕ) (b : UInt8) : Prop :=
  (k = 1 ∧ 0x7F < n ∧ n ≤ 0x7FF ∧ b.toNat = n / 64 + 0xC0) ∨
    (k = 2 ∧ 0x7FF < n ∧ n ≤ 0xFFFF ∧ b.toNat = n / 4096 + 0xE0) ∨
    (k = 3 ∧ 0xFFFF < n ∧ n < 0x110000 ∧ b.toNat = n / 262144 + 0xF0)

theorem IsLead.unique {k k' : ℕ} {b b' : UInt8} (h : IsLead n k b) (h' : IsLead n k' b') :
    k = k' ∧ b = b' := by
  rw [← UInt8.toNat_inj]
  simp only [IsLead] at h h'
  omega

theorem IsLead.lt {k : ℕ} (h : IsLead n k b) : 0x7F < n := by
  simp only [IsLead] at h
  omega

theorem IsLead.exists_ofLead {k : ℕ} (h : IsLead n k b) (position : ℕ) :
    ∃ p, Pending.ofLead position b = some p := by
  rw [exists_ofLead_iff]
  simp only [IsLead] at h
  omega

theorem exists_isLead (hvalid : n.isValidChar) (hn : 0x7F < n) :
    ∃ k b, IsLead n k b ∧ String.utf8EncodeChar (Char.ofNat n) = b :: continuation k n := by
  have hval : (Char.ofNat n).val.toNat = n := by
    rw [Char.toNat_val, Char.toNat_ofNat, if_pos hvalid]
  simp only [Nat.isValidChar] at hvalid
  rw [String.utf8EncodeChar, hval, if_neg (by omega)]
  split_ifs with h2 h3
  · refine ⟨1, UInt8.ofNat (n / 64 % 32 + 0xC0), .inl ⟨rfl, hn, h2, ?_⟩, ?_⟩
    · rw [UInt8.toNat_ofNat']
      omega
    · simp only [continuation, digitByte, Nat.pow_zero, Nat.div_one]
  · refine ⟨2, UInt8.ofNat (n / 4096 % 16 + 0xE0), .inr (.inl ⟨rfl, by omega, h3, ?_⟩), ?_⟩
    · rw [UInt8.toNat_ofNat']
      omega
    · simp only [continuation, digitByte, Nat.pow_zero, Nat.div_one, Nat.pow_one]
  · refine ⟨3, UInt8.ofNat (n / 262144 % 8 + 0xF0),
      .inr (.inr ⟨rfl, by omega, by omega, ?_⟩), ?_⟩
    · rw [UInt8.toNat_ofNat']
      omega
    · simp only [continuation, digitByte, Nat.pow_zero, Nat.div_one, Nat.reducePow]

/-- What stands behind a first byte completes a number exactly if the number is that of a character
and these are its bytes. -/
theorem completes_ofLead_iff (hp : Pending.ofLead position b = some p) :
    p.Completes tail n ↔ n.isValidChar ∧ ∃ k, IsLead n k b ∧ tail = continuation k n := by
  have hlead := exists_ofLead_iff.1 ⟨p, hp⟩
  simp only [Nat.isValidChar]
  obtain ⟨hdue, hb, hvalue, hadmits⟩ | ⟨hdue, hb, hb', hvalue, hadmits⟩ |
    ⟨hdue, hb, hvalue, hadmits⟩ := ofLead_cases hp
  · rw [Pending.completes_iff hdue fun _ => bounds_of_admits hp, hadmits, digitByte_toNat, hvalue]
    constructor
    · rintro ⟨rfl, hn, -⟩
      exact ⟨by omega, 1, .inl (by omega), rfl⟩
    · rintro ⟨-, k, ⟨rfl, h⟩ | ⟨rfl, h⟩ | ⟨rfl, h⟩, rfl⟩
      · exact ⟨rfl, by omega, by omega⟩
      · omega
      · omega
  · rw [Pending.completes_iff hdue fun _ => bounds_of_admits hp, hadmits, digitByte_toNat, hvalue]
    constructor
    · rintro ⟨rfl, hn, hdigit⟩
      exact ⟨by omega, 2, .inr (.inl (by omega)), rfl⟩
    · rintro ⟨hvalid, k, ⟨rfl, h⟩ | ⟨rfl, h⟩ | ⟨rfl, h⟩, rfl⟩
      · omega
      · exact ⟨rfl, by omega, by omega⟩
      · omega
  · rw [Pending.completes_iff hdue fun _ => bounds_of_admits hp, hadmits, digitByte_toNat, hvalue]
    constructor
    · rintro ⟨rfl, hn, hdigit⟩
      exact ⟨by omega, 3, .inr (.inr (by omega)), rfl⟩
    · rintro ⟨hvalid, k, ⟨rfl, h⟩ | ⟨rfl, h⟩ | ⟨rfl, h⟩, rfl⟩
      · omega
      · omega
      · exact ⟨rfl, by omega, by omega⟩

theorem utf8EncodeChar_of_le {c : Char} (hc : c.toNat ≤ 0x7F) :
    String.utf8EncodeChar c = [UInt8.ofNat c.toNat] := by
  rw [String.utf8EncodeChar, Char.toNat_val]
  exact if_pos hc

/-- The bytes of a character are decoded into it. -/
theorem decodeFrom_utf8EncodeChar (position : ℕ) (c : Char) (rest : List UInt8) :
    decodeFrom position none (String.utf8EncodeChar c ++ rest) =
      (decodeFrom (position + (String.utf8EncodeChar c).length) none rest).map (c :: ·) := by
  have hvalid : c.toNat.isValidChar := c.valid
  have hc : Char.ofNat c.toNat = c := Char.ofNat_toNat c
  by_cases hn : c.toNat ≤ 0x7F
  · have hnat : (UInt8.ofNat c.toNat).toNat = c.toNat := by
      rw [UInt8.toNat_ofNat']
      omega
    have hascii : UInt8.ofNat c.toNat < 0x80 := by
      rw [isAscii_iff, hnat]
      omega
    rw [utf8EncodeChar_of_le hn, List.singleton_append, decodeFrom, if_pos hascii, hnat, hc,
      List.length_singleton]
  · obtain ⟨k, b, hlead, hbytes⟩ := exists_isLead hvalid (by omega)
    obtain ⟨p, hp⟩ := hlead.exists_ofLead position
    have hcompletes := (completes_ofLead_iff hp).2 ⟨hvalid, k, hlead, rfl⟩
    have hascii : ¬ b < 0x80 := by
      have hmin := exists_ofLead_iff.1 ⟨p, hp⟩
      rw [isAscii_iff]
      omega
    rw [hc] at hbytes
    rw [hbytes, List.cons_append, decodeFrom, if_neg hascii, hp]
    simp only
    rw [decodeFrom_of_completes hcompletes, hc, List.length_cons]
    congr 2
    omega

/-- What is decoded starts with the bytes of a character. -/
theorem exists_utf8EncodeChar {bytes : List UInt8}
    (h : decodeFrom position none (b :: bytes) = .ok s) :
    ∃ c rest, b :: bytes = String.utf8EncodeChar c ++ rest := by
  rw [decodeFrom] at h
  split at h
  · next hascii =>
    rw [isAscii_iff] at hascii
    have hvalid : b.toNat.isValidChar := .inl (by omega)
    have hc : (Char.ofNat b.toNat).toNat = b.toNat := by rw [Char.toNat_ofNat, if_pos hvalid]
    refine ⟨Char.ofNat b.toNat, bytes, ?_⟩
    rw [utf8EncodeChar_of_le (by omega), hc, UInt8.ofNat_toNat, List.singleton_append]
  · split at h
    · cases h
    · next p hp =>
      obtain ⟨tail, n, rest, hcompletes, rfl⟩ := exists_completes h
      obtain ⟨hvalid, k, hlead, rfl⟩ := (completes_ofLead_iff hp).1 hcompletes
      obtain ⟨k', b', hlead', hbytes⟩ := exists_isLead hvalid hlead.lt
      obtain ⟨rfl, rfl⟩ := hlead.unique hlead'
      exact ⟨Char.ofNat n, rest, by rw [hbytes, List.cons_append]⟩

theorem decodeFrom_char_append_eq_ok_iff {c : Char} :
    decodeFrom position none (String.utf8EncodeChar c ++ rest) = .ok s ↔
      ∃ s', s = c :: s' ∧
        decodeFrom (position + (String.utf8EncodeChar c).length) none rest = .ok s' := by
  rw [decodeFrom_utf8EncodeChar]
  cases decodeFrom (position + (String.utf8EncodeChar c).length) none rest with
  | error fault => simp [Except.map]
  | ok s' => simp [Except.map, eq_comm]

/-- Decoding succeeds on the bytes of texts and gives the text. -/
theorem decodeFrom_eq_ok_iff {bytes : List UInt8} :
    decodeFrom position none bytes = .ok s ↔ bytes = encode s := by
  constructor
  · intro h
    -- no character has an empty sequence of bytes, so fewer bytes are left after each
    induction hlen : bytes.length using Nat.strongRecOn generalizing bytes position s with
    | _ k ih =>
      cases bytes with
      | nil => cases h; rfl
      | cons b bytes =>
        obtain ⟨c, rest, hbytes⟩ := exists_utf8EncodeChar h
        have hlt : rest.length < k := by
          have hpos := List.length_pos_of_ne_nil (String.utf8EncodeChar_ne_nil (c := c))
          rw [← hlen, hbytes, List.length_append]
          omega
        rw [hbytes, decodeFrom_char_append_eq_ok_iff] at h
        obtain ⟨s', rfl, hrest⟩ := h
        rw [hbytes, encode_cons, ih _ hlt hrest rfl]
  · rintro rfl
    induction s generalizing position with
    | nil => rfl
    | cons c s ih => rw [encode_cons, decodeFrom_utf8EncodeChar, ih]; rfl

theorem decode_eq_ok_iff {bytes : List UInt8} : decode bytes = .ok s ↔ bytes = encode s :=
  decodeFrom_eq_ok_iff

/-- The first bytes of a text are those of its first character and of no other. -/
theorem encode_eq_char_append_iff {c : Char} :
    encode s = String.utf8EncodeChar c ++ rest ↔ ∃ s', s = c :: s' ∧ rest = encode s' := by
  rw [eq_comm, ← decode_eq_ok_iff, decode, decodeFrom_char_append_eq_ok_iff]
  simp only [decodeFrom_eq_ok_iff]

/-- The byte order mark. -/
def mark : List UInt8 :=
  [0xEF, 0xBB, 0xBF]

theorem mark_eq : mark = String.utf8EncodeChar '\uFEFF' := by
  decide

theorem dropMark_mark_append (bytes : List UInt8) : dropMark (mark ++ bytes) = bytes := rfl

theorem dropMark_cases (bytes : List UInt8) :
    bytes = mark ++ dropMark bytes ∨ dropMark bytes = bytes ∧ ∀ rest, bytes ≠ mark ++ rest := by
  unfold dropMark
  split
  · exact .inl rfl
  · next h => exact .inr ⟨rfl, h⟩

/-- Texts that do not start with the character of the mark have no mark to drop. -/
theorem dropMark_encode (hs : s.head? ≠ some '\uFEFF') : dropMark (encode s) = encode s := by
  obtain h | ⟨h, -⟩ := dropMark_cases (encode s)
  · rw [mark_eq, encode_eq_char_append_iff] at h
    obtain ⟨s', rfl, -⟩ := h
    exact absurd rfl hs
  · exact h

/-- A mark is the bytes of a character, so dropping it does not change what is well formed. -/
theorem exists_dropMark_eq_encode_iff {bytes : List UInt8} :
    (∃ s, dropMark bytes = encode s) ↔ ∃ s, bytes = encode s := by
  obtain h | ⟨h, -⟩ := dropMark_cases bytes
  · constructor
    · rintro ⟨s, hs⟩
      exact ⟨'\uFEFF' :: s, by rw [h, hs, mark_eq, encode_cons]⟩
    · rintro ⟨s, hs⟩
      rw [hs, mark_eq, encode_eq_char_append_iff] at h
      obtain ⟨s', -, hs'⟩ := h
      rw [hs]
      exact ⟨s', hs'⟩
  · rw [h]

end DartModels.Text.Utf8
