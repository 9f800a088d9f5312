import DartModels.Text.Removal

/-! # Terminal escapes

Names may hold sequences that would move the cursor or change the colours of a terminal: an escape
character and a bracket, parameters, and a letter. Text without them is safe to show.
-/

namespace DartModels.Text

def isEscapeParameter (c : Char) : Bool :=
  c.isDigit || c = ';' || c = '?'

/-- The length of the escape sequence at the front of a text; zero if there is none. -/
def escapeLength : List Char → Nat
  | '\x1b' :: '[' :: rest =>
    match rest.dropWhile isEscapeParameter with
    | [] => 0
    | c :: _ => if c.isAlpha then (rest.takeWhile isEscapeParameter).length + 3 else 0
  | _ => 0

/-- A text without its escape sequences. -/
def withoutEscapes (s : String) : String :=
  String.ofList (remove escapeLength s.toList)

end DartModels.Text
