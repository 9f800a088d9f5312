import DartModels.Proofs.Text.Utf8
import DartModels.Schema.Document

/-! # Documents as texts and as bytes

A document can be given as a text or as its bytes, with or without a byte order mark in front. What
is read from it, and what is wrong with it, does not depend on that choice.
-/

namespace DartModels.Schema

open Text

variable {s : List Char} {bytes : List UInt8}

/-- The bytes of a text, after the mark if there is one, are read as the text. -/
theorem readBytes_of_dropMark (h : Utf8.dropMark bytes = Utf8.encode s) :
    readBytes bytes = readText s := by
  rw [readBytes, Utf8.decode_eq_ok_iff.2 h]

/-- Texts have faults of their own. -/
theorem readText_ne_notUtf8 (s : List Char) (fault : Utf8.Fault) :
    readText s ≠ .error (.notUtf8 fault) := by
  fun_cases readText s with
  | case1 => nofun
  | case2 _ schema =>
    obtain ⟨entries, -, h⟩ | h | h := Reading.ofJson_cases schema <;> rw [h] <;> nofun
  | case3 => nofun
  | case4 => nofun

/-- Reading bytes fails in this way exactly if they are no text. -/
theorem exists_notUtf8_iff :
    (∃ fault, readBytes bytes = .error (.notUtf8 fault)) ↔ ∀ s, bytes ≠ Utf8.encode s := by
  rw [← not_exists, ← Utf8.exists_dropMark_eq_encode_iff]
  constructor
  · rintro ⟨fault, h⟩ ⟨s, hs⟩
    rw [readBytes_of_dropMark hs] at h
    exact readText_ne_notUtf8 s fault h
  · intro h
    cases hdecode : Utf8.decode (Utf8.dropMark bytes) with
    | ok s => exact absurd ⟨s, Utf8.decode_eq_ok_iff.1 hdecode⟩ h
    | error fault => exact ⟨fault, by rw [readBytes, hdecode]⟩

/-- The bytes of a text are read like the text itself, also after a byte order mark; without one the
text must not start with the character that the mark stands for. Bytes of no text are rejected. -/
theorem input_encodings_agree :
    (∀ t : String, (Input.bytes (Utf8.mark ++ t.toUTF8.data.toList)).read = (Input.text t).read ∧
      (t.toList.head? ≠ some '\uFEFF' →
        (Input.bytes t.toUTF8.data.toList).read = (Input.text t).read)) ∧
      ∀ bytes : List UInt8, (∃ fault, (Input.bytes bytes).read = .error (.notUtf8 fault)) ↔
        ¬ bytes.toByteArray.IsValidUTF8 := by
  refine ⟨fun t => ⟨?_, fun hfirst => ?_⟩, fun bytes => ?_⟩
  · rw [Utf8.toUTF8_toList]
    exact readBytes_of_dropMark (Utf8.dropMark_mark_append _)
  · rw [Utf8.toUTF8_toList]
    exact readBytes_of_dropMark (Utf8.dropMark_encode hfirst)
  · rw [Utf8.isValidUTF8_iff, not_exists]
    exact exists_notUtf8_iff

/-- A document with one definition, named by a letter outside ASCII. -/
def accented : String :=
  "\x7b\"definitions\":\x7b\"\u00e9\":\x7b\x7d\x7d\x7d"

theorem input_encodings_agree_accented :
    accented.toList.head? ≠ some '\uFEFF' ∧
      (Input.bytes accented.toUTF8.data.toList).read = (Input.text accented).read ∧
      (Input.bytes (Utf8.mark ++ accented.toUTF8.data.toList)).read = (Input.text accented).read ∧
      (Input.text accented).read.toOption.map (·.document.definitions.map Definition.name) =
        some ["\u00e9"] := by
  have hfirst : accented.toList.head? ≠ some '\uFEFF' := by decide +kernel
  obtain ⟨hmarked, hplain⟩ := input_encodings_agree.1 accented
  exact ⟨hfirst, hplain hfirst, hmarked, by decide +kernel⟩

/-- The second byte begins a character that the third one does not continue. -/
example : readBytes [0x22, 0xC3, 0x22] =
    .error (.notUtf8 ⟨1, 2, 0xC3, .invalidContinuation⟩) := by rfl

end DartModels.Schema
