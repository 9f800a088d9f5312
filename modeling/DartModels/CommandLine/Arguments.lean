/-! # Arguments

Options are given by their long names, with the value after an equals sign or as the next argument,
or by letters, several of which may share a dash. Options and positional arguments may be mixed
until a double dash ends the options.
-/

namespace DartModels.CommandLine

inductive OptionName
  | config
  | modelsDir
  | noComment
  | verbose
  | help
  deriving DecidableEq, Repr

namespace OptionName

def takesValue : OptionName → Bool
  | .config | .modelsDir => true
  | .noComment | .verbose | .help => false

def ofLong? : String → Option OptionName
  | "--config" => some .config
  | "--models-dir" => some .modelsDir
  | "--no-generation-comment" => some .noComment
  | "--verbose" => some .verbose
  | "--help" => some .help
  | _ => none

def ofLetter? : Char → Option OptionName
  | 'c' => some .config
  | 'm' => some .modelsDir
  | 'v' => some .verbose
  | _ => none

end OptionName

inductive UsageError
  | noSuchOption
  | missingValue
  | unexpectedValue
  | missingArgument
  | extraArguments
  | badConfig
  | badSchema
  | badOutput
  deriving DecidableEq, Repr

def UsageError.message : UsageError → String
  | .noSuchOption => "No such option."
  | .missingValue => "An option requires a value."
  | .unexpectedValue => "An option does not take a value."
  | .missingArgument => "SCHEMA and OUTPUT are required."
  | .extraArguments => "Too many arguments."
  | .badConfig => "The value of --config is not a file."
  | .badSchema => "SCHEMA cannot be opened."
  | .badOutput => "OUTPUT is a file."

/-- What was given, each list in order. -/
structure Arguments where
  options : List (OptionName × String)
  positional : List String
  deriving DecidableEq, Repr

namespace Arguments

def empty : Arguments := ⟨[], []⟩

def addOption (name : OptionName) (value : String) (a : Arguments) : Arguments :=
  { a with options := (name, value) :: a.options }

def addPositional (value : String) (a : Arguments) : Arguments :=
  { a with positional := value :: a.positional }

/-- The last value given for an option. -/
def value? (a : Arguments) (name : OptionName) : Option String :=
  a.options.reverse.lookup name

def isGiven (a : Arguments) (name : OptionName) : Bool :=
  (a.value? name).isSome

end Arguments

/-- The letters after a dash: the flags among them, and the option whose value is the rest. -/
def readLetters :
    List Char → Except UsageError (List OptionName × Option (OptionName × List Char))
  | [] => .ok ([], none)
  | c :: rest =>
    match OptionName.ofLetter? c with
    | none => .error .noSuchOption
    | some name =>
      if name.takesValue then .ok ([], some (name, rest))
      else (readLetters rest).map fun r => (name :: r.1, r.2)

/-- An argument that starts with a dash: options that are complete, and one that wants a value. -/
def readOption (s : List Char) :
    Except UsageError (List (OptionName × String) × Option OptionName) :=
  let name := String.ofList (s.takeWhile (· != '='))
  let attached := match s.dropWhile (· != '=') with
    | [] => none
    | _ :: value => some (String.ofList value)
  match OptionName.ofLong? name, attached with
  | some option, some value =>
    if option.takesValue then .ok ([(option, value)], none) else .error .unexpectedValue
  | some option, none =>
    if option.takesValue then .ok ([], some option) else .ok ([(option, "")], none)
  | none, _ =>
    match s with
    | '-' :: '-' :: _ => .error .noSuchOption
    | _ =>
      (readLetters s.tail).map fun r =>
        let flags := r.1.map fun flag => (flag, "")
        match r.2 with
        | none => (flags, none)
        | some (option, []) => (flags, some option)
        | some (option, value) => (flags ++ [(option, String.ofList value)], none)

def isOption (s : List Char) : Bool :=
  match s with
  | '-' :: _ :: _ => true
  | _ => false

def readArguments : List String → Except UsageError Arguments
  | [] => .ok .empty
  | arg :: rest =>
    if arg = "--" then .ok ⟨[], rest⟩
    else if !isOption arg.toList then (readArguments rest).map (.addPositional arg)
    else match readOption arg.toList with
      | .error e => .error e
      | .ok (complete, none) =>
        (readArguments rest).map fun a => { a with options := complete ++ a.options }
      | .ok (complete, some option) =>
        match rest with
        | [] => .error .missingValue
        | value :: rest =>
          (readArguments rest).map fun a =>
            { a with options := complete ++ (option, value) :: a.options }

end DartModels.CommandLine
