import DartModels.Json.Value
import DartModels.Text.Hex

/-! # Reading JSON

The reader works on the characters that are left. A fault is placed by the number of characters
from it to the end of the text; its message counts from the front. Beyond the standard the reader
takes `NaN`, `Infinity` and `-Infinity`, and it refuses integers of more than 4300 digits.
-/

namespace DartModels.Json

open Text

inductive Cause
  | byteOrderMark
  | expectingValue
  | expectingName
  | expectingColon
  | expectingComma
  | extraData
  | unterminatedString
  | controlCharacter
  | badEscape
  | badUnicodeEscape
  deriving DecidableEq, Repr

inductive ReadError
  | malformed (cause : Cause) (left : Nat)
  | tooManyDigits
  deriving DecidableEq, Repr

def maxIntegerDigits : Nat := 4300

def isJsonBlank (c : Char) : Bool :=
  c = ' ' || c = '\t' || c = '\n' || c = '\r'

def skipBlanks (s : List Char) : List Char :=
  s.dropWhile isJsonBlank

def fail {α : Type} (cause : Cause) (here : List Char) : Except ReadError α :=
  .error (.malformed cause here.length)

def simpleEscape (c : Char) : Option Char :=
  match c with
  | '"' => some '"'
  | '\\' => some '\\'
  | '/' => some '/'
  | 'b' => some '\x08'
  | 'f' => some '\x0c'
  | 'n' => some '\n'
  | 'r' => some '\r'
  | 't' => some '\t'
  | _ => none

def hexUnit (a b c d : Char) : Option Nat := do
  return ((← hexValue a) * 16 + (← hexValue b)) * 256 + (← hexValue c) * 16 + (← hexValue d)

/-- The code points and 16-bit units of a string, up to the closing quote, and what follows it.
`opening` is the text from the opening quote on. -/
def readUnits (opening : List Char) : List Char → Except ReadError (List Nat × List Char)
  | [] => fail .unterminatedString opening
  | '"' :: rest => .ok ([], rest)
  | ['\\'] => fail .unterminatedString opening
  | '\\' :: 'u' :: a :: b :: c :: d :: rest =>
    match hexUnit a b c d with
    | some unit =>
      if rest.isEmpty then .error (.malformed .badUnicodeEscape 5)
      else (readUnits opening rest).map fun r => (unit :: r.1, r.2)
    | none => .error (.malformed .badUnicodeEscape (rest.length + 5))
  | '\\' :: 'u' :: rest => .error (.malformed .badUnicodeEscape (rest.length + 1))
  | '\\' :: c :: rest =>
    match simpleEscape c with
    | some e => (readUnits opening rest).map fun r => (e.toNat :: r.1, r.2)
    | none => .error (.malformed .badEscape (rest.length + 2))
  | c :: rest =>
    if c < ' ' then .error (.malformed .controlCharacter (rest.length + 1))
    else (readUnits opening rest).map fun r => (c.toNat :: r.1, r.2)

def isHighUnit (n : Nat) : Bool :=
  0xD800 ≤ n && n < 0xDC00

def isLowUnit (n : Nat) : Bool :=
  0xDC00 ≤ n && n < 0xE000

/-- A high unit and the low unit after it make one character. -/
def joinUnits : List Nat → List Char
  | [] => []
  | [n] => [Char.ofNat n]
  | high :: low :: rest =>
    if isHighUnit high && isLowUnit low then
      Char.ofNat (0x10000 + (high - 0xD800) * 0x400 + (low - 0xDC00)) :: joinUnits rest
    else Char.ofNat high :: joinUnits (low :: rest)

/-- The string that starts after an opening quote. -/
def readString (s : List Char) : Except ReadError (String × List Char) :=
  (readUnits ('"' :: s) s).map fun r => (String.ofList (joinUnits r.1), r.2)

def digitsValue (ds : List Char) : Nat :=
  ds.foldl (fun n d => n * 10 + (d.toNat - 48)) 0

/-- A leading zero stands alone. -/
def integerPart : List Char → Option (List Char × List Char)
  | [] => none
  | c :: rest =>
    if c = '0' then some (['0'], rest)
    else if c.isDigit then some (c :: rest.takeWhile Char.isDigit, rest.dropWhile Char.isDigit)
    else none

/-- The digits after a point; without digits the point is not part of the number. -/
def fractionPart : List Char → List Char × List Char
  | '.' :: rest =>
    match rest.takeWhile Char.isDigit with
    | [] => ([], '.' :: rest)
    | ds => (ds, rest.dropWhile Char.isDigit)
  | s => ([], s)

/-- The power of ten of a number; without digits its mark is not part of the number. -/
def exponentPart (s : List Char) : Option Int × List Char :=
  match s with
  | [] => (none, s)
  | e :: rest =>
    if e = 'e' || e = 'E' then
      let (negative, body) := match rest with
        | '-' :: body => (true, body)
        | '+' :: body => (false, body)
        | body => (false, body)
      match body.takeWhile Char.isDigit with
      | [] => (none, s)
      | ds =>
        let n : Int := digitsValue ds
        (some (if negative then -n else n), body.dropWhile Char.isDigit)
    else (none, s)

/-- The number at the front of a text; `none` if there is none. -/
def readNumber (s : List Char) : Option (Except ReadError (Json × List Char)) :=
  let (negative, body) := match s with
    | '-' :: body => (true, body)
    | body => (false, body)
  match integerPart body with
  | none => none
  | some (whole, rest) =>
    let (fraction, rest) := fractionPart rest
    let (exponent, rest) := exponentPart rest
    if fraction.isEmpty && exponent.isNone then
      if maxIntegerDigits < whole.length then some (.error .tooManyDigits)
      else
        let n : Int := digitsValue whole
        some (.ok (.int (if negative then -n else n), rest))
    else
      let digits := digitsValue (whole ++ fraction)
      let x := Binary64.ofDecimal negative digits (exponent.getD 0 - fraction.length)
      some (.ok (.float x, rest))

mutual

/-- The value at the front of a text. Two steps in a row take at least one character, so `fuel`
need not exceed twice the length of the text. -/
def readValue : Nat → List Char → Except ReadError (Json × List Char)
  | 0, s => fail .expectingValue s
  | fuel + 1, s =>
    match s with
    | '"' :: rest => (readString rest).map fun r => (.str r.1, r.2)
    | '\x7b' :: rest =>
      match skipBlanks rest with
      | '\x7d' :: rest => .ok (.obj [], rest)
      | rest => readMembers fuel [] rest
    | '[' :: rest =>
      match skipBlanks rest with
      | ']' :: rest => .ok (.arr [], rest)
      | rest => readItems fuel [] rest
    | 'n' :: 'u' :: 'l' :: 'l' :: rest => .ok (.null, rest)
    | 't' :: 'r' :: 'u' :: 'e' :: rest => .ok (.bool true, rest)
    | 'f' :: 'a' :: 'l' :: 's' :: 'e' :: rest => .ok (.bool false, rest)
    | 'N' :: 'a' :: 'N' :: rest => .ok (.float .nan, rest)
    | 'I' :: 'n' :: 'f' :: 'i' :: 'n' :: 'i' :: 't' :: 'y' :: rest =>
      .ok (.float (.infinite false), rest)
    | '-' :: 'I' :: 'n' :: 'f' :: 'i' :: 'n' :: 'i' :: 't' :: 'y' :: rest =>
      .ok (.float (.infinite true), rest)
    | _ => (readNumber s).getD (fail .expectingValue s)

/-- The items of a list up to the closing bracket; `done` holds those read, last one first. -/
def readItems : Nat → List Json → List Char → Except ReadError (Json × List Char)
  | 0, _, s => fail .expectingValue s
  | fuel + 1, done, s =>
    match readValue fuel s with
    | .error e => .error e
    | .ok (item, rest) =>
      match skipBlanks rest with
      | ']' :: rest => .ok (.arr (item :: done).reverse, rest)
      | ',' :: rest => readItems fuel (item :: done) (skipBlanks rest)
      | rest => fail .expectingComma rest

/-- The members of an object up to the closing brace; `done` holds those read, in order. -/
def readMembers :
    Nat → List (String × Json) → List Char → Except ReadError (Json × List Char)
  | 0, _, s => fail .expectingValue s
  | fuel + 1, done, s =>
    match s with
    | '"' :: rest =>
      match readString rest with
      | .error e => .error e
      | .ok (name, rest) =>
        match skipBlanks rest with
        | ':' :: rest =>
          match readValue fuel (skipBlanks rest) with
          | .error e => .error e
          | .ok (value, rest) =>
            let done := setMember name value done
            match skipBlanks rest with
            | '\x7d' :: rest => .ok (.obj done, rest)
            | ',' :: rest => readMembers fuel done (skipBlanks rest)
            | rest => fail .expectingComma rest
        | rest => fail .expectingColon rest
    | rest => fail .expectingName rest

end

/-- The value of a whole text. -/
def read (s : List Char) : Except ReadError Json :=
  if s.head? = some '\ufeff' then fail .byteOrderMark s
  else match readValue (2 * s.length + 2) (skipBlanks s) with
    | .error e => .error e
    | .ok (value, rest) =>
      match skipBlanks rest with
      | [] => .ok value
      | rest => fail .extraData rest

def Cause.message : Cause → String
  | .byteOrderMark => "Unexpected UTF-8 BOM (decode using utf-8-sig)"
  | .expectingValue => "Expecting value"
  | .expectingName => "Expecting property name enclosed in double quotes"
  | .expectingColon => "Expecting ':' delimiter"
  | .expectingComma => "Expecting ',' delimiter"
  | .extraData => "Extra data"
  | .unterminatedString => "Unterminated string starting at"
  | .controlCharacter => "Invalid control character at"
  | .badEscape => "Invalid \\escape"
  | .badUnicodeEscape => "Invalid \\uXXXX escape"

/-- A place in a text: line and column from one, position from zero. -/
structure Place where
  line : Nat
  column : Nat
  position : Nat
  deriving DecidableEq, Repr

/-- The place before the last `left` characters of a text. -/
def Place.ofLeft (s : List Char) (left : Nat) : Place :=
  let position := s.length - left
  let before := s.take position
  ⟨before.count '\n' + 1, (before.reverse.takeWhile (· != '\n')).length + 1, position⟩

def Place.text (p : Place) : String :=
  s!"line {p.line} column {p.column} (char {p.position})"

def faultMessage (cause : Cause) (place : Place) : String :=
  s!"{cause.message}: {place.text}"

end DartModels.Json
