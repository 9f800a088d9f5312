import DartModels.Text.Removal
import DartModels.Text.Segments

/-! # Structural check

Generated text must declare a type, and its braces and parentheses must come in equal numbers once
string literals and line comments are left out.
-/

namespace DartModels.Dart

/-- The length of the rest of a block up to and with its closing triple quote. -/
def blockLength : List Char → Option Nat
  | [] => none
  | '"' :: '"' :: '"' :: _ => some 3
  | _ :: rest => (blockLength rest).map (· + 1)

/-- The length of the rest of a single-quoted literal with its closing quote. A backslash takes the
next character with it, and a line break ends the search. -/
def quotedLength : List Char → Option Nat
  | [] => none
  | '\'' :: _ => some 1
  | ['\\'] => none
  | '\\' :: c :: rest => if c = '\n' then none else (quotedLength rest).map (· + 2)
  | c :: rest => if c = '\n' then none else (quotedLength rest).map (· + 1)

/-- The length of the literal or comment at the front of a text; zero if there is none. -/
def nonCodeLength : List Char → Nat
  | '"' :: '"' :: '"' :: rest => ((blockLength rest).map (· + 3)).getD 0
  | '\'' :: rest => ((quotedLength rest).map (· + 1)).getD 0
  | '/' :: '/' :: rest => (rest.takeWhile (· != '\n')).length + 2
  | _ => 0

/-- A text without its literals and comments. -/
def code (s : List Char) : List Char :=
  Text.remove nonCodeLength s

inductive StructureFault
  | noTypes
  | braces (opened closed : Nat)
  | parentheses (opened closed : Nat)
  deriving DecidableEq, Repr

def StructureFault.message : StructureFault → String
  | .noTypes => "Generated Dart code has no type definitions"
  | .braces opened closed =>
    s!"Generated Dart code has unbalanced braces: {opened} open, {closed} close"
  | .parentheses opened closed =>
    s!"Generated Dart code has unbalanced parentheses: {opened} open, {closed} close"

def declaresType (s : List Char) : Bool :=
  Text.occursIn "class ".toList s || Text.occursIn "enum ".toList s

def checkStructure (s : List Char) : Except StructureFault Unit :=
  if !declaresType s then .error .noTypes
  else
    let code := code s
    let braces := (code.count '\x7b', code.count '\x7d')
    let parentheses := (code.count '(', code.count ')')
    if braces.1 ≠ braces.2 then .error (.braces braces.1 braces.2)
    else if parentheses.1 ≠ parentheses.2 then
      .error (.parentheses parentheses.1 parentheses.2)
    else .ok ()

end DartModels.Dart
