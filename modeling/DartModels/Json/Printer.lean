import DartModels.Binary64.Shortest
import DartModels.Json.Value
import DartModels.Text.Hex
import DartModels.Text.Quoted

/-! # Writing JSON

Two texts of a value. The compact text is ASCII JSON on one line. The display text is the one that
shows up where a value that is no string is used as part of a name.
-/

namespace DartModels.Json

open Text

/-- One 16-bit unit as an escape. -/
def unitEscape (n : Nat) : List Char :=
  '\\' :: 'u' :: hex 4 n

/-- A character inside a JSON string; characters beyond the first plane take two escapes. -/
def escapedChar (c : Char) : List Char :=
  if c = '"' then ['\\', '"']
  else if c = '\\' then ['\\', '\\']
  else if c = '\n' then ['\\', 'n']
  else if c = '\r' then ['\\', 'r']
  else if c = '\t' then ['\\', 't']
  else if c = '\x08' then ['\\', 'b']
  else if c = '\x0c' then ['\\', 'f']
  else if ' ' ≤ c && c ≤ '~' then [c]
  else if c.toNat < 0x10000 then unitEscape c.toNat
  else
    let n := c.toNat - 0x10000
    unitEscape (0xD800 + n / 0x400) ++ unitEscape (0xDC00 + n % 0x400)

def stringText (s : String) : String :=
  String.ofList ('"' :: s.toList.flatMap escapedChar ++ ['"'])

def jsonNumbers : Binary64.SpecialNames := ⟨"NaN", "Infinity"⟩

def displayNumbers : Binary64.SpecialNames := ⟨"nan", "inf"⟩

def commaSeparated (parts : List String) : String :=
  ", ".intercalate parts

mutual

/-- The compact text of a value. -/
def text : Json → String
  | .null => "null"
  | .bool b => if b then "true" else "false"
  | .int n => toString n
  | .float x => x.text jsonNumbers
  | .str s => stringText s
  | .arr items => "[" ++ commaSeparated (itemTexts items) ++ "]"
  | .obj members => "\x7b" ++ commaSeparated (memberTexts members) ++ "\x7d"

def itemTexts : List Json → List String
  | [] => []
  | v :: rest => v.text :: itemTexts rest

def memberTexts : List (String × Json) → List String
  | [] => []
  | (name, v) :: rest => (stringText name ++ ": " ++ v.text) :: memberTexts rest

end

mutual

/-- A value shown inside a list or an object, where strings are quoted. -/
def nestedDisplay : Json → String
  | .null => "None"
  | .bool b => if b then "True" else "False"
  | .int n => toString n
  | .float x => x.text displayNumbers
  | .str s => quoted s
  | .arr items => "[" ++ commaSeparated (itemDisplays items) ++ "]"
  | .obj members => "\x7b" ++ commaSeparated (memberDisplays members) ++ "\x7d"

def itemDisplays : List Json → List String
  | [] => []
  | v :: rest => v.nestedDisplay :: itemDisplays rest

def memberDisplays : List (String × Json) → List String
  | [] => []
  | (name, v) :: rest => (quoted name ++ ": " ++ v.nestedDisplay) :: memberDisplays rest

end

/-- The display text of a value; a string is shown as it is. -/
def display : Json → String
  | .str s => s
  | v => v.nestedDisplay

/-- The text that stands for a literal when it is named. -/
def literalText : Json → String
  | .str s => s
  | v => v.text

end DartModels.Json
