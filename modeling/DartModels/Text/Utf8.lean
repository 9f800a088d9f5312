import DartModels.Text.Hex

/-! # UTF-8

Decoding bytes into characters, one byte at a time. The decoder stops at the first byte that
cannot continue a well-formed sequence and says which bytes are at fault.
-/

namespace DartModels.Text.Utf8

inductive Reason
  | invalidStart
  | invalidContinuation
  | unexpectedEnd
  deriving DecidableEq, Repr

/-- The bytes from `start` up to `stop`, the first of them `first`, begin no character. -/
structure Fault where
  start : Nat
  stop : Nat
  first : UInt8
  reason : Reason
  deriving DecidableEq, Repr

/-- A character under way: the bytes still due, the bounds of the next one, the value so far. -/
structure Pending where
  start : Nat
  first : UInt8
  due : Nat
  low : UInt8
  high : UInt8
  value : Nat

/-- What the first byte of a longer sequence announces. -/
def Pending.ofLead (start : Nat) (b : UInt8) : Option Pending :=
  if b < 0xC2 then none
  else if b < 0xE0 then some ⟨start, b, 1, 0x80, 0xBF, b.toNat - 0xC0⟩
  else if b < 0xF0 then
    some ⟨start, b, 2, if b = 0xE0 then 0xA0 else 0x80, if b = 0xED then 0x9F else 0xBF,
      b.toNat - 0xE0⟩
  else if b < 0xF5 then
    some ⟨start, b, 3, if b = 0xF0 then 0x90 else 0x80, if b = 0xF4 then 0x8F else 0xBF,
      b.toNat - 0xF0⟩
  else none

def decodeFrom (position : Nat) : Option Pending → List UInt8 → Except Fault (List Char)
  | none, [] => .ok []
  | some p, [] => .error ⟨p.start, position, p.first, .unexpectedEnd⟩
  | none, b :: rest =>
    if b < 0x80 then
      (decodeFrom (position + 1) none rest).map (Char.ofNat b.toNat :: ·)
    else match Pending.ofLead position b with
      | none => .error ⟨position, position + 1, b, .invalidStart⟩
      | some p => decodeFrom (position + 1) (some p) rest
  | some p, b :: rest =>
    if p.low ≤ b && b ≤ p.high then
      let value := p.value * 64 + (b.toNat - 0x80)
      match p.due with
      | 0 | 1 => (decodeFrom (position + 1) none rest).map (Char.ofNat value :: ·)
      | due => decodeFrom (position + 1) (some ⟨p.start, p.first, due - 1, 0x80, 0xBF, value⟩) rest
    else .error ⟨p.start, position, p.first, .invalidContinuation⟩

def decode (bytes : List UInt8) : Except Fault (List Char) :=
  decodeFrom 0 none bytes

/-- The bytes after a byte order mark, if there is one. -/
def dropMark : List UInt8 → List UInt8
  | 0xEF :: 0xBB :: 0xBF :: rest => rest
  | bytes => bytes

def Reason.message : Reason → String
  | .invalidStart => "invalid start byte"
  | .invalidContinuation => "invalid continuation byte"
  | .unexpectedEnd => "unexpected end of data"

def Fault.message (f : Fault) : String :=
  let bytes :=
    if f.stop = f.start + 1 then
      s!"byte 0x{String.ofList (hex 2 f.first.toNat)} in position {f.start}"
    else s!"bytes in position {f.start}-{f.stop - 1}"
  s!"'utf-8' codec can't decode {bytes}: {f.reason.message}"

end DartModels.Text.Utf8
