import DartModels.Text.CaseTable

/-! # Full case mapping

Upper and lower case of characters and of words. A mapping may yield several characters, and a
capital sigma becomes a final sigma at the end of a word.
-/

namespace DartModels.Text

def shiftIn (runs : List CaseRun) (c : Char) : Char :=
  match runs.find? fun r => r.contains c.toNat with
  | some r => Char.ofNat (c.toNat + r.shift).toNat
  | none => c

def expandIn (expansions : List (Nat × List Nat)) (runs : List CaseRun) (c : Char) : List Char :=
  match expansions.find? fun e => e.1 == c.toNat with
  | some e => e.2.map Char.ofNat
  | none => [shiftIn runs c]

/-- The full uppercase form of a character. -/
def upper (c : Char) : List Char :=
  expandIn upperExpansions upperRuns c

/-- The full lowercase form of a character that stands alone. -/
def lower (c : Char) : List Char :=
  expandIn lowerExpansions lowerRuns c

def isCaseIgnorable (c : Char) : Bool :=
  caseIgnorableRanges.contains c

def isCased (c : Char) : Bool :=
  casedRanges.contains c

/-- Whether the first character that counts is a letter with case. -/
def startsCased (s : List Char) : Bool :=
  (s.dropWhile isCaseIgnorable).head?.any isCased

/-- Lowercase text, knowing whether a letter with case stands before it. -/
def lowerAfter : Bool → List Char → List Char
  | _, [] => []
  | cased, c :: rest =>
    let form := if c = 'Σ' && cased && !startsCased rest then ['ς'] else lower c
    form ++ lowerAfter (if isCaseIgnorable c then cased else isCased c) rest

/-- The lowercase form of a text. -/
def lowerAll (s : List Char) : List Char :=
  lowerAfter false s

/-- The text with its first character in upper case. -/
def upperFirst : List Char → List Char
  | [] => []
  | c :: rest => upper c ++ rest

/-- The text with its first character in lower case. -/
def lowerFirst : List Char → List Char
  | [] => []
  | c :: rest => lower c ++ rest

@[simp]
theorem lowerAfter_nil (b : Bool) : lowerAfter b [] = [] := rfl

@[simp]
theorem upperFirst_nil : upperFirst [] = [] := rfl

@[simp]
theorem lowerFirst_nil : lowerFirst [] = [] := rfl

end DartModels.Text
