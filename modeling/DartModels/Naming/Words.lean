import DartModels.Text.Blank
import DartModels.Text.Case
import DartModels.Text.Segments

/-! # Word case

A schema name is a sequence of words between separators. Type case and field case run the words
together; a stem joins them with underscores and names files and folders.
-/

namespace DartModels.Naming

open Text

def isSeparator (c : Char) : Bool :=
  c = '_' || c = '-' || isBlank c

/-- Runs the words together; `fresh` says that a separator has just been passed. -/
def camelFrom : Bool → List Char → List Char
  | _, [] => []
  | fresh, c :: rest =>
    if isSeparator c then camelFrom true rest
    else (if fresh then upper c else [c]) ++ camelFrom false rest

def camel (s : List Char) : List Char :=
  camelFrom false s

def typeCase (s : List Char) : List Char :=
  upperFirst (camel s)

def fieldCase (s : List Char) : List Char :=
  lowerFirst (camel s)

/-- An underscore before every ASCII capital. -/
def markCapitals (s : List Char) : List Char :=
  s.flatMap fun c => if c.isUpper then ['_', c] else [c]

/-- One underscore for every run of separators; `inRun` says that the run has been written. -/
def squeezeFrom : Bool → List Char → List Char
  | _, [] => []
  | inRun, c :: rest =>
    if isSeparator c then (if inRun then [] else ['_']) ++ squeezeFrom true rest
    else c :: squeezeFrom false rest

def dropUnderscore : List Char → List Char
  | '_' :: rest => rest
  | s => s

/-- The name of the file and the folder of a definition. -/
def stem (s : List Char) : List Char :=
  dropUnderscore (squeezeFrom false (lowerAll (markCapitals s)))

/-- A lowercase ASCII letter followed by ASCII letters. -/
def isLowerCamel : List Char → Bool
  | [] => false
  | c :: rest => c.isLower && rest.all Char.isAlpha

/-- The word with its first character in upper case and the others in lower case. -/
def capitalized : List Char → List Char
  | [] => []
  | c :: rest => upper c ++ lowerAll rest

/-- Lower camel case for enumeration members, whose words may also be separated by full stops. -/
def memberCase (s : List Char) : List Char :=
  if isLowerCamel s then s
  else match segments (fun c => isSeparator c || c = '.') s with
    | [] => []
    | head :: words => lowerAll head ++ words.flatMap capitalized

end DartModels.Naming
