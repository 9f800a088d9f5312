import DartModels.CommandLine.Header
import DartModels.Proofs.Path.LastSegment

/-! # Headers do not tell folders

The text that stands for the command is made of the last segments of the paths it was given. Two
commands that differ in nothing but folders, or in how a path is written, have the same header.
-/

namespace DartModels.CommandLine

open Generation DartModels.Path

/-- A parameter that is a path with the last segment `name`, or a stream of such a path. -/
inductive Parameter.Names (name : String) : Parameter → Prop
  | path {s : String} (h : EndsIn name s) : Names name (.plain (.str s))
  | stream {s : String} (h : EndsIn name s) : Names name (.stream (some s))

/-- What the paths among the parameters end in; the options file may be missing. -/
structure Parameters.EndIn (schema output : String) (config : Option String) (ps : Parameters) :
    Prop where
  schema : ∃ p, ps.schema = some p ∧ p.Names schema
  output : ∃ p, ps.output = some p ∧ p.Names output
  config : match config with
    | some name => ∃ p, ps.config = some p ∧ p.Names name
    | none => ∀ p ∈ ps.config, p.holds = false

variable {name schema output : String} {config : Option String} {p : Parameter} {ps qs : Parameters}

theorem lastSegment_of_endsIn {s : String} (h : EndsIn name s) :
    Parameter.lastSegment s = name := by
  rw [Parameter.lastSegment, h.name_ofString]
  exact if_neg h.ne_empty

theorem ne_empty_of_endsIn {s : String} (h : EndsIn name s) : s ≠ "" := by
  rintro rfl
  obtain ⟨folders, idle, hs, -⟩ := h.spelling
  have hname : name.toList = [] := by
    have hnil := (List.append_eq_nil_iff.1 hs.symm).2
    exact (List.append_eq_nil_iff.1 hnil).1
  exact h.ne_empty (String.toList_injective hname)

theorem Parameter.Names.argumentWords (h : p.Names name) :
    argumentWords (some p) = [name] := by
  cases h with
  | @path s h =>
    have hholds : (Parameter.plain (.str s)).holds = true := bne_iff_ne.2 (ne_empty_of_endsIn h)
    rw [CommandLine.argumentWords, if_pos hholds, Parameter.text, lastSegment_of_endsIn h]
  | @stream s h =>
    have hholds : (Parameter.stream (some s)).holds = true := rfl
    rw [CommandLine.argumentWords, if_pos hholds, Parameter.text, Option.getD_some,
      lastSegment_of_endsIn h]

/-- The words for the options file. -/
def configWords : Option String → List String
  | some name => ["--config", name]
  | none => []

theorem Parameters.EndIn.optionWords_config (h : ps.EndIn schema output config) :
    optionWords "--config" ps.config = configWords config := by
  have hconfig := h.config
  cases config with
  | some name =>
    obtain ⟨p, hp, hname⟩ := hconfig
    rw [hp, optionWords, hname.argumentWords, configWords]
  | none =>
    have hwords : argumentWords ps.config = [] := by
      cases hp : ps.config with
      | none => rfl
      | some p => rw [argumentWords, if_neg (by simp [hconfig p hp])]
    rw [optionWords, hwords, configWords]

/-- The words of a command, in which its paths are the names that they end in. -/
theorem Parameters.EndIn.words_eq (h : ps.EndIn schema output config) :
    ps.words = [schema, output] ++ configWords config ++
      optionWords "--models-dir" (ps.modelsDir.filter fun p => !p.isText defaultModelsDir) ++
      flagWords "--no-generation-comment" ps.noComment ++ flagWords "--verbose" ps.verbose := by
  obtain ⟨p, hp, hschema⟩ := h.schema
  obtain ⟨q, hq, houtput⟩ := h.output
  rw [Parameters.words, hp, hq, hschema.argumentWords, houtput.argumentWords, h.optionWords_config,
    List.singleton_append]

/-- Two commands whose paths end in the same names, and that agree in all else, have one text, in
which these names stand for the paths; so all files have the same header. -/
theorem header_independent_of_folders (hps : ps.EndIn schema output config)
    (hqs : qs.EndIn schema output config) (hdir : ps.modelsDir = qs.modelsDir)
    (hcomment : ps.noComment = qs.noComment) (hverbose : ps.verbose = qs.verbose) :
    ps.command = qs.command ∧
      (∀ o, generationComment o ps.command = generationComment o qs.command) ∧
      ps.words = [schema, output] ++ configWords config ++
        optionWords "--models-dir" (ps.modelsDir.filter fun p => !p.isText defaultModelsDir) ++
        flagWords "--no-generation-comment" ps.noComment ++ flagWords "--verbose" ps.verbose := by
  have hwords : ps.words = qs.words := by
    rw [hps.words_eq, hqs.words_eq, hdir, hcomment, hverbose]
  have hcommand : ps.command = qs.command := by
    rw [Parameters.command, Parameters.command, hwords]
  refine ⟨hcommand, fun o => ?_, hps.words_eq⟩
  rw [hcommand]

/-- A command with absolute paths. -/
def absoluteParameters : Parameters where
  config := some (.plain (.str "/etc//dart/./options.json"))
  modelsDir := some (.plain (.str "data/models"))
  noComment := some (.plain (.bool false))
  verbose := some (.plain (.bool true))
  schema := some (.stream (some "/home/ada/schemas/pets.json"))
  output := some (.plain (.str "/srv/app/lib//."))

/-- The same command, run where its schema and options lie. -/
def localParameters : Parameters :=
  { absoluteParameters with
    config := some (.plain (.str "options.json"))
    schema := some (.stream (some "./pets.json"))
    output := some (.plain (.str "../lib/")) }

theorem endIn_absoluteParameters :
    absoluteParameters.EndIn "pets.json" "lib" (some "options.json") where
  schema := ⟨_, rfl, .stream ⟨by decide, by decide, by decide, "/home/ada/schemas/".toList, [],
    by decide, .inr ⟨"/home/ada/schemas".toList, by decide⟩, .nil⟩⟩
  output := ⟨_, rfl, .path ⟨by decide, by decide, by decide, "/srv/app/".toList, "//.".toList,
    by decide, .inr ⟨"/srv/app".toList, by decide⟩, .slash (.dot .nil)⟩⟩
  config := ⟨_, rfl, .path ⟨by decide, by decide, by decide, "/etc//dart/./".toList, [],
    by decide, .inr ⟨"/etc//dart/.".toList, by decide⟩, .nil⟩⟩

theorem endIn_localParameters :
    localParameters.EndIn "pets.json" "lib" (some "options.json") where
  schema := ⟨_, rfl, .stream ⟨by decide, by decide, by decide, "./".toList, [],
    by decide, .inr ⟨".".toList, by decide⟩, .nil⟩⟩
  output := ⟨_, rfl, .path ⟨by decide, by decide, by decide, "../".toList, "/".toList,
    by decide, .inr ⟨"..".toList, by decide⟩, .slash .nil⟩⟩
  config := ⟨_, rfl, .path ⟨by decide, by decide, by decide, [], [], by decide, .inl rfl, .nil⟩⟩

theorem header_independent_of_folders_pets :
    (absoluteParameters.EndIn "pets.json" "lib" (some "options.json") ∧
      localParameters.EndIn "pets.json" "lib" (some "options.json") ∧
      absoluteParameters.modelsDir = localParameters.modelsDir ∧
      absoluteParameters.noComment = localParameters.noComment ∧
      absoluteParameters.verbose = localParameters.verbose) ∧
    absoluteParameters.command = localParameters.command ∧
    localParameters.command =
      "json_schema_to_dart pets.json lib --config options.json --models-dir models --verbose" :=
  ⟨⟨endIn_absoluteParameters, endIn_localParameters, rfl, rfl, rfl⟩,
    (header_independent_of_folders endIn_absoluteParameters endIn_localParameters rfl rfl rfl).1,
    by decide +kernel⟩

end DartModels.CommandLine
