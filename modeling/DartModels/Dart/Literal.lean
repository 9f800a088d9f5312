import DartModels.Json.Printer

/-! # Literals

String literals stand between single quotes. The characters that would end the literal, start an
interpolation or break the line are escaped, and so is the backslash.
-/

namespace DartModels.Dart

def escaped (c : Char) : List Char :=
  match c with
  | '\\' => ['\\', '\\']
  | '\'' => ['\\', '\'']
  | '$' => ['\\', '$']
  | '\n' => ['\\', 'n']
  | '\r' => ['\\', 'r']
  | c => [c]

def stringLiteral (s : List Char) : List Char :=
  '\'' :: s.flatMap escaped ++ ['\'']

def quote (s : String) : String :=
  String.ofList (stringLiteral s.toList)

/-- A JSON value as a literal: strings quoted, everything else as JSON text. -/
def literal : Json → String
  | .str s => quote s
  | v => v.text

end DartModels.Dart
