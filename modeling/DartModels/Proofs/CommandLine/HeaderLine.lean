import DartModels.CommandLine.Command
import DartModels.Proofs.Generation.Headers
import DartModels.Proofs.Json.Display
import DartModels.Proofs.Path.LastSegment

/-! # Headers and lines

Nothing of a command but its header gets into the generated files, and the header is one line as
long as the last segments of its paths are. These are shown as they are: a line break in one of them
ends the comment, and what follows stands in the file as code.
-/

namespace DartModels.CommandLine

open Files Generation Schema Text

namespace Parameter

/-- The path that a parameter is, or under which its stream was opened. -/
def path? : Parameter → Option String
  | .stream name => name
  | .plain (.str s) => some s
  | .plain _ => none

/-- A parameter that is no path, or whose last segment has no line breaks. -/
def EndsInOneLine (p : Parameter) : Prop :=
  ∀ s ∈ p.path?, OneLine (Path.ofString s).name

@[simp]
theorem endsInOneLine_plain_iff {s : String} :
    (plain (.str s)).EndsInOneLine ↔ OneLine (Path.ofString s).name := by
  simp [EndsInOneLine, path?]

@[simp]
theorem endsInOneLine_stream_iff {s : String} :
    (stream (some s)).EndsInOneLine ↔ OneLine (Path.ofString s).name := by
  simp [EndsInOneLine, path?]

theorem oneLine_lastSegment_iff (s : String) :
    OneLine (lastSegment s) ↔ OneLine (Path.ofString s).name := by
  unfold lastSegment
  dsimp only
  split
  · next hname =>
    rw [hname]
    refine iff_of_true (fun c hc => ?_) (by decide)
    rcases Path.eq_of_mem_of_name_eq_empty hname hc with rfl | rfl <;> decide
  · exact Iff.rfl

theorem oneLine_text_iff (p : Parameter) : OneLine p.text ↔ p.EndsInOneLine := by
  cases p with
  | stream name =>
    cases name with
    | none => exact iff_of_true (by decide) (by simp [EndsInOneLine, path?])
    | some s => exact (oneLine_lastSegment_iff s).trans endsInOneLine_stream_iff.symm
  | plain v =>
    cases v with
    | str s => exact (oneLine_lastSegment_iff s).trans endsInOneLine_plain_iff.symm
    | null | bool | int | float | arr | obj =>
      exact iff_of_true (Json.oneLine_display rfl) (by simp [EndsInOneLine, path?])

/-- What is left out for being empty has one line. -/
theorem endsInOneLine_of_holds_eq_false {p : Parameter} (h : p.holds = false) :
    p.EndsInOneLine := by
  cases p with
  | stream name => cases h
  | plain v =>
    cases v with
    | str s =>
      have hs : s = "" := by simpa [holds, Json.holds] using h
      rw [hs, endsInOneLine_plain_iff]
      decide
    | null | bool | int | float | arr | obj => simp [EndsInOneLine, path?]

end Parameter

/-- The parameters that are shown with their values. -/
def Parameters.shown (ps : Parameters) : List Parameter :=
  ps.schema.toList ++ ps.output.toList ++ ps.config.toList ++ ps.modelsDir.toList

open Parameter

theorem oneLine_argumentWords_iff (p : Option Parameter) :
    (∀ word ∈ argumentWords p, OneLine word) ↔ ∀ q ∈ p.toList, q.EndsInOneLine := by
  cases p with
  | none => simp [argumentWords]
  | some p =>
    rw [Option.toList_some, List.forall_mem_singleton, argumentWords]
    cases hp : p.holds with
    | false => simp [endsInOneLine_of_holds_eq_false hp]
    | true => simp [oneLine_text_iff]

theorem oneLine_optionWords_iff {flag : String} (hflag : OneLine flag) (p : Option Parameter) :
    (∀ word ∈ optionWords flag p, OneLine word) ↔ ∀ q ∈ p.toList, q.EndsInOneLine := by
  rw [← oneLine_argumentWords_iff, optionWords]
  cases argumentWords p with
  | nil => rfl
  | cons word rest => rw [List.forall_mem_cons]; exact and_iff_right hflag

theorem oneLine_flagWords {flag : String} (hflag : OneLine flag) (p : Option Parameter) :
    ∀ word ∈ flagWords flag p, OneLine word := by
  unfold flagWords
  split
  · exact List.forall_mem_singleton.2 hflag
  · simp

/-- The default that is left out has one line, as have all other defaults. -/
theorem endsInOneLine_filter_iff (p : Option Parameter) :
    (∀ q ∈ (p.filter fun p => !p.isText defaultModelsDir).toList, q.EndsInOneLine) ↔
      ∀ q ∈ p.toList, q.EndsInOneLine := by
  cases p with
  | none => rfl
  | some p =>
    cases hdefault : p.isText defaultModelsDir with
    | false => simp [Option.filter, hdefault]
    | true =>
      have hp : p = .plain (.str defaultModelsDir) := by
        unfold isText at hdefault
        split at hdefault
        · rw [beq_iff_eq.1 hdefault]
        · cases hdefault
      have hends : p.EndsInOneLine := by
        rw [hp, endsInOneLine_plain_iff]
        decide
      simp [Option.filter, hdefault, hends]

/-- A command is one line exactly if the last segments of its paths are. -/
theorem oneLine_command_iff (ps : Parameters) :
    OneLine ps.command ↔ ∀ p ∈ ps.shown, p.EndsInOneLine := by
  rw [Parameters.command, oneLine_intercalate_iff (by decide), List.forall_mem_cons,
    and_iff_right (by decide), Parameters.words, Parameters.shown]
  simp only [List.forall_mem_append, oneLine_argumentWords_iff, endsInOneLine_filter_iff,
    oneLine_optionWords_iff (by decide : OneLine "--config"),
    oneLine_optionWords_iff (by decide : OneLine "--models-dir"),
    iff_true_intro (oneLine_flagWords (by decide : OneLine "--no-generation-comment") ps.noComment),
    iff_true_intro (oneLine_flagWords (by decide : OneLine "--verbose") ps.verbose), and_true]

variable {o : Options}

theorem generationComment_of_holds (h : o.generationComment.holds = true) (command : String) :
    generationComment o command = "// Generated by json_schema_to_dart v1.0.0 : " ++ command := by
  rw [generationComment, if_pos h]
  simp [toString, programName]

theorem oneLine_generationComment_iff (o : Options) (ps : Parameters) :
    OneLine (generationComment o ps.command) ↔
      (o.generationComment.holds = true → ∀ p ∈ ps.shown, p.EndsInOneLine) := by
  cases hheader : o.generationComment.holds with
  | false =>
    rw [(generationComment_eq_empty_iff o ps.command).2 hheader]
    exact iff_of_true (by decide) (by simp)
  | true =>
    rw [generationComment_of_holds hheader, oneLine_append_iff, and_iff_right (by decide),
      oneLine_command_iff]
    exact (imp_iff_right rfl).symm

/-- The header is the first line of a file exactly if it is one line. -/
theorem firstLine_headed_iff {header : String} (hne : header ≠ "") (body : Path × String) :
    firstLine (headed header body).content = header ↔ OneLine header := by
  rw [headed, if_neg hne]
  exact firstLine_append_iff header body.2

/-- Nothing of the command but the header gets into the files. The header is one line, and is then
the first line of every file that has it, exactly if no path of the command has a line break in its
last segment. -/
theorem header_oneLine_iff (d : Document) (o : Options) (ps : Parameters) :
    (OneLine (generationComment o ps.command) ↔
      (o.generationComment.holds = true →
        ∀ p ∈ ps.shown, ∀ s ∈ p.path?, OneLine (Path.ofString s).name)) ∧
    (∀ file ∈ (build d o ps.command).files, o.generationComment.holds = true →
      (firstLine file.content = generationComment o ps.command ↔
        ∀ p ∈ ps.shown, ∀ s ∈ p.path?, OneLine (Path.ofString s).name)) ∧
    ∃ bodies : List (Path × String), ∀ qs : Parameters,
      (build d o qs.command).files = bodies.map (headed (generationComment o qs.command)) := by
  obtain ⟨bodies, fault?, hbodies⟩ := sameBodies_build d o
  refine ⟨oneLine_generationComment_iff o ps, fun file hfile hheader => ?_, bodies,
    fun qs => (hbodies qs.command).1⟩
  rw [(hbodies ps.command).1] at hfile
  obtain ⟨body, -, rfl⟩ := List.mem_map.1 hfile
  rw [firstLine_headed_iff (generationComment_ne_empty hheader ps.command), oneLine_generationComment_iff]
  exact forall_prop_of_true hheader

/-- The folder for the models brings a line of code with it. -/
def strayArguments : List String := ["--models-dir", "lib\nint stray = 0;", "-", "out"]

/-- Where a command starts that reads its schema from the standard input. -/
def bareSetting : Setting where
  disk := .ofTree .empty
  current := ⟨1, []⟩
  input := []

/-- What the command makes of these arguments there. -/
def strayParameters : Parameters where
  config := some (.plain .null)
  modelsDir := some (.plain (.str "lib\nint stray = 0;"))
  noComment := some (.plain (.bool false))
  verbose := some (.plain (.bool false))
  schema := some (.stream (some "<stdin>"))
  output := some (.plain (.str "/out"))

def loneDefinition : Document := ⟨[⟨"Pet", []⟩]⟩

theorem header_oneLine_iff_stray : ∃ file ∈ (build loneDefinition {} strayParameters.command).files,
    firstLine file.content ≠ generationComment {} strayParameters.command := by
  have hne : (build loneDefinition {} strayParameters.command).files ≠ [] := by decide +kernel
  obtain ⟨file, hfile⟩ := List.exists_mem_of_ne_nil _ hne
  refine ⟨file, hfile, fun hfirst => ?_⟩
  have hends := ((header_oneLine_iff loneDefinition {} strayParameters).2.1 file hfile rfl).1 hfirst
  have hshown : .plain (.str "lib\nint stray = 0;") ∈ strayParameters.shown := by
    simp [strayParameters, Parameters.shown]
  exact absurd (hends _ hshown _ rfl) (by decide)

theorem header_has_second_line : ∃ arguments request content,
    readArguments strayArguments = .ok arguments ∧
    Request.ofArguments bareSetting arguments = .ok (request, content) ∧
    request.parameters = strayParameters ∧
    generationComment {} strayParameters.command = "// Generated by json_schema_to_dart " ++
      "v1.0.0 : json_schema_to_dart <stdin> out --models-dir lib\nint stray = 0;" ∧
    ¬ OneLine (generationComment {} strayParameters.command) :=
  ⟨_, _, _, rfl, rfl, rfl, by decide +kernel, by decide +kernel⟩

end DartModels.CommandLine
