import DartModels.Dart.EnumFile
import DartModels.Model.Resolve
import DartModels.Proofs.Dart.Statements
import DartModels.Proofs.Naming.Casing
import DartModels.Proofs.Naming.Identifiers
import DartModels.Proofs.Naming.Legal

/-! # Methods of an enumeration

The declaration of an enumeration as it is read from its lines. Its decoder takes every literal to
the member made of it and everything else to the sentinel; its encoder is the inverse on demand.
-/

namespace DartModels.Dart

open Model Naming

universe u

/-- The identifier between two marks, if a line consists of these. -/
def wordBetween? (front back line : String) : Option String :=
  match nameAfter? front line.toList with
  | some (c :: name, rest) =>
    if rest = back.toList then some (String.ofList (c :: name)) else none
  | _ => none

section Runs

variable {α β : Type*}

/-- The first line, if it can be read, and the lines after it. -/
def readOne (read : String → Option β) : List String → Option (β × List String)
  | [] => none
  | line :: rest => (read line).map (·, rest)

theorem readOne_cons {read : String → Option β} {line : String} {b : β} (h : read line = some b)
    (rest : List String) : readOne read (line :: rest) = some (b, rest) := by
  rw [readOne, h, Option.map_some]

/-- The lines at the front that can be read, and the lines after them. -/
def readRun (read : String → Option β) : List String → List β × List String
  | [] => ([], [])
  | line :: rest =>
    match read line with
    | some b => (b :: (readRun read rest).1, (readRun read rest).2)
    | none => ([], line :: rest)

theorem readRun_nil_of_eq_none {read : String → Option β} {line : String} (h : read line = none)
    (rest : List String) : readRun read (line :: rest) = ([], line :: rest) := by
  rw [readRun, h]

theorem readRun_cons {read : String → Option β} {line : String} {b : β} (h : read line = some b)
    (rest : List String) :
    readRun read (line :: rest) = (b :: (readRun read rest).1, (readRun read rest).2) := by
  rw [readRun, h]

theorem readRun_map_append {read : String → Option β} {write : α → String} {mean : α → β}
    {xs : List α} (h : ∀ x ∈ xs, read (write x) = some (mean x)) (rest : List String) :
    readRun read (xs.map write ++ rest) =
      (xs.map mean ++ (readRun read rest).1, (readRun read rest).2) := by
  induction xs with
  | nil => rfl
  | cons x xs ih =>
    obtain ⟨hx, hxs⟩ := List.forall_mem_cons.1 h
    rw [List.map_cons, List.cons_append, readRun_cons hx, ih hxs]
    rfl

end Runs

/-- What the lines of an enumeration declare. -/
structure EnumDeclaration where
  name : String
  members : List String
  sentinel : String
  encodedType : String
  encoder : List Statement
  decoder : List Statement
  deriving DecidableEq, Repr

namespace EnumDeclaration

/-- The declaration that lines are read as, if they hold one and nothing else. -/
def read? (lines : List String) : Option EnumDeclaration := do
  let (name, lines) ← readOne (wordBetween? "enum " " \x7b") lines
  let (members, lines) := readRun (wordBetween? "  " ",") lines
  let (sentinel, lines) ← readOne (wordBetween? "  " ";") lines
  let lines ← lines.dropPrefix? [""]
  let (encodedType, lines) ← readOne (wordBetween? "  " " toMap() \x7b") lines
  let (encoder, lines) := readRun readStatement lines
  let lines ← lines.dropPrefix? ["  \x7d", "", s!"  factory {name}.fromMap(dynamic raw) \x7b"]
  let (decoder, lines) := readRun readStatement lines
  if lines = ["  \x7d", "\x7d"] then
    some ⟨name, members, sentinel, encodedType, encoder, decoder⟩
  else none

variable {κ : Type u} (L : Library κ) (d : EnumDeclaration)

def constants : List String :=
  d.members ++ [d.sentinel]

/-- What a word stands for in a method. A parameter hides a constant of the enumeration, and such a
constant hides what every member has. -/
def scope (parameters inherited : List (String × Object κ)) (word : String) : Option (Object κ) :=
  match parameters.lookup word with
  | some o => some o
  | none =>
    if word ∈ d.constants then some (.constant ⟨d.name, word⟩) else inherited.lookup word

/-- The result of encoding the constant of a name. -/
def toMap? (name : String) : Option (Object κ) :=
  run L (d.scope [("this", .constant ⟨d.name, name⟩)] [("name", .scalar (.str name))]) d.encoder

/-- The result of decoding an object. -/
def fromMap? (raw : Object κ) : Option (Object κ) :=
  run L (d.scope [("raw", raw)] []) d.decoder

end EnumDeclaration

section Reading

theorem wordBetween?_append {front back word : String} (hword : IsIdentifier word)
    (hback : back.toList.head?.any isIdentifierChar = false) :
    wordBetween? front back (front ++ word ++ back) = some word := by
  obtain ⟨c, rest, htext, -⟩ := hword.first
  have hline : (front ++ word ++ back).toList = front.toList ++ (word.toList ++ back.toList) := by
    simp
  rw [wordBetween?, hline, nameAfter?_append hword.chars hback, htext]
  dsimp only
  rw [if_pos rfl, ← htext, String.ofList_toList]

theorem isIdentifier_of_isLegal {reserved : List String} {name : String}
    (h : IsLegal reserved name) (hchars : ∀ c ∈ name.toList, isIdentifierChar c = true) :
    IsIdentifier name := by
  obtain ⟨word, tail, htext, ⟨c, rest, rfl, hc, -⟩, -⟩ := h.shape
  exact ⟨hchars, c, rest ++ tail, htext, isDigit_of_isAlpha hc⟩

theorem isIdentifier_typeName (name : String) : IsIdentifier (typeName name) :=
  isIdentifier_of_isLegal (isLegal_typeName name) fun _ => isIdentifierChar_of_mem_typeName

theorem isIdentifier_memberName (name : String) : IsIdentifier (memberName name) :=
  isIdentifier_of_isLegal (isLegal_memberName name) fun _ => isIdentifierChar_of_mem_memberName

end Reading

section Literals

/-- The member that is made of a literal. -/
def memberOf (literal : Scalar) : String :=
  memberName literal.toJson.literalText

theorem memberOf_ne {word : String} (h : word ∈ Naming.sentinel :: enumMemberNames) (s : Scalar) :
    memberOf s ≠ word := by
  rintro rfl
  exact (isLegal_memberName s.toJson.literalText).not_reserved h

variable (type : String)

def encodeTest (literal : Scalar) : Statement :=
  .test (.variable "this") (.constant ⟨type, memberOf literal⟩) (.scalar literal)

def decodeTest (literal : Scalar) : Statement :=
  .test (.variable "raw") (.scalar literal) (.constant ⟨type, memberOf literal⟩)

/-- The declaration of the enumeration of some literals. -/
def EnumDeclaration.ofLiterals (wire : Bool) (literals : List Scalar) : EnumDeclaration where
  name := type
  members := literals.map memberOf
  sentinel := Naming.sentinel
  encodedType := if !wire || literals.all (·.toJson.isString) then "String" else dynamicText
  encoder := (if wire then literals else []).map (encodeTest type) ++ [.return (.variable "name")]
  decoder := literals.map (decodeTest type) ++ [.return (.constant ⟨type, Naming.sentinel⟩)]

variable {type} {literals : List Scalar}

theorem readStatement_encodeTest (htype : IsIdentifier type) {s : Scalar} (hs : s.IsFinite) :
    readStatement s!"    if (this == {type}.{memberOf s}) return {literal s.toJson};" =
      some (encodeTest type s) := by
  have hthis : Spells "this" (.variable "this") := spells_word ⟨List.all_eq_true.1 rfl, _, _, rfl, rfl⟩
  have hmember := spells_constant htype (isIdentifier_memberName s.toJson.literalText).chars
  have hline : s!"    if (this == {type}.{memberOf s}) return {literal s.toJson};" =
      "    if (" ++ "this" ++ " == " ++ (type ++ "." ++ memberOf s) ++ ") return " ++
        literal s.toJson ++ ";" := by
    simp [String.ext_iff, toString]
  rw [hline]
  exact readStatement_test hthis hmember (spells_literal hs)

theorem readStatement_decodeTest (htype : IsIdentifier type) {s : Scalar} (hs : s.IsFinite) :
    readStatement s!"    if (raw == {literal s.toJson}) return {type}.{memberOf s};" =
      some (decodeTest type s) := by
  have hraw : Spells "raw" (.variable "raw") := spells_word ⟨List.all_eq_true.1 rfl, _, _, rfl, rfl⟩
  have hmember := spells_constant htype (isIdentifier_memberName s.toJson.literalText).chars
  have hline : s!"    if (raw == {literal s.toJson}) return {type}.{memberOf s};" =
      "    if (" ++ "raw" ++ " == " ++ literal s.toJson ++ ") return " ++
        (type ++ "." ++ memberOf s) ++ ";" := by
    simp [String.ext_iff, toString]
  rw [hline]
  exact readStatement_test hraw (spells_literal hs) hmember

/-- The lines of a body up to the closing brace. -/
theorem readRun_body {α : Type*} {write : α → String} {mean : α → Statement} {xs : List α}
    (h : ∀ x ∈ xs, readStatement (write x) = some (mean x)) {text : String} {o : Operand}
    (hlast : Spells text o) (rest : List String) :
    readRun readStatement
        (xs.map write ++ ("    return " ++ text ++ ";") :: "  \x7d" :: rest) =
      (xs.map mean ++ [.return o], "  \x7d" :: rest) := by
  rw [readRun_map_append h, readRun_cons (readStatement_return hlast),
    readRun_nil_of_eq_none (by rfl)]

/-- The lines of an enumeration, with those of each run in one piece. -/
theorem enumLines_ofValues (wire : Bool) (property : String) (literals : List Scalar) :
    enumLines wire (.ofValues property (literals.map Scalar.toJson)) =
      ("enum " ++ typeName property ++ " \x7b") ::
        (literals.map (fun s => "  " ++ memberOf s ++ ",") ++
          ("  " ++ Naming.sentinel ++ ";") :: "" ::
          ("  " ++ (if !wire || literals.all (·.toJson.isString) then "String" else dynamicText) ++
            " toMap() \x7b") ::
          ((if wire then literals else []).map (fun s =>
              s!"    if (this == {typeName property}.{memberOf s}) return {literal s.toJson};") ++
            ("    return " ++ "name" ++ ";") :: "  \x7d" :: "" ::
            s!"  factory {typeName property}.fromMap(dynamic raw) \x7b" ::
            (literals.map (fun s =>
                s!"    if (raw == {literal s.toJson}) return {typeName property}.{memberOf s};") ++
              ("    return " ++ (typeName property ++ "." ++ Naming.sentinel) ++ ";") ::
              "  \x7d" :: ["\x7d"]))) := by
  cases wire <;>
    simp [enumLines, encodedTypeText, wireLines, memberTests, Enumeration.ofValues, memberOf,
      toString, Function.comp_def, String.append_assoc]

/-- The lines of the enumeration of some finite literals are read as its declaration. -/
theorem read?_enumLines (wire : Bool) (property : String) (hfinite : ∀ s ∈ literals, s.IsFinite) :
    EnumDeclaration.read? (enumLines wire (.ofValues property (literals.map Scalar.toJson))) =
      some (.ofLiterals (typeName property) wire literals) := by
  have htype := isIdentifier_typeName property
  have hunknown : IsIdentifier Naming.sentinel := ⟨List.all_eq_true.1 rfl, _, _, rfl, rfl⟩
  have hencoded : IsIdentifier
      (if !wire || literals.all (·.toJson.isString) then "String" else dynamicText) := by
    split <;> exact ⟨List.all_eq_true.1 rfl, _, _, rfl, rfl⟩
  have hmember (s : Scalar) : wordBetween? "  " "," ("  " ++ memberOf s ++ ",") =
      some (memberOf s) := wordBetween?_append (isIdentifier_memberName _) rfl
  have hselected : ∀ s ∈ (if wire then literals else []), s.IsFinite := by
    cases wire
    · exact fun s hs => absurd hs List.not_mem_nil
    · exact hfinite
  have hname : Spells "name" (.variable "name") := spells_word ⟨List.all_eq_true.1 rfl, _, _, rfl, rfl⟩
  have hlast := spells_constant htype hunknown.chars
  have hprefix (front rest : List String) : (front ++ rest).dropPrefix? front = some rest :=
    List.dropPrefix?_append_of_beq _ (beq_self_eq_true _)
  have hblank (rest : List String) : ("" :: rest).dropPrefix? [""] = some rest := hprefix [""] rest
  have hfactory (header : String) (rest : List String) :
      ("  \x7d" :: "" :: header :: rest).dropPrefix? ["  \x7d", "", header] = some rest :=
    hprefix ["  \x7d", "", header] rest
  -- one step for each part of the declaration, in the order of the lines
  rw [enumLines_ofValues, EnumDeclaration.read?]
  dsimp only [Option.bind_eq_bind]
  rw [readOne_cons (wordBetween?_append htype rfl), Option.bind_some]
  dsimp only
  rw [readRun_map_append fun s _ => hmember s, readRun_nil_of_eq_none (by rfl),
    readOne_cons (wordBetween?_append hunknown rfl), Option.bind_some]
  dsimp only
  rw [hblank, Option.bind_some, readOne_cons (wordBetween?_append hencoded rfl),
    Option.bind_some]
  dsimp only
  rw [readRun_body (fun s hs => readStatement_encodeTest htype (hselected s hs)) hname]
  dsimp only
  rw [hfactory, Option.bind_some,
    readRun_body (fun s hs => readStatement_decodeTest htype (hfinite s hs)) hlast]
  dsimp only
  rw [if_pos rfl, List.append_nil]
  rfl

end Literals

namespace EnumDeclaration

section Methods

variable {κ : Type u} {L : Library κ} {type : String} {wire : Bool} {literals : List Scalar}
  {name : String} {raw : Object κ}

/-- No constant hides the name that every constant has. -/
theorem eval_name (this : Object κ) (text : String) :
    (Operand.variable "name").eval ((ofLiterals type wire literals).scope [("this", this)]
      [("name", .scalar (.str text))]) = some (.scalar (.str text)) := by
  have hname : "name" ∉ (ofLiterals type wire literals).constants := by
    simp only [constants, ofLiterals, List.mem_append, List.mem_map, List.mem_singleton, not_or,
      not_exists, not_and]
    exact ⟨fun s _ => memberOf_ne (by decide) s, by decide⟩
  change (if "name" ∈ (ofLiterals type wire literals).constants then _ else _) = _
  rw [if_neg hname]
  rfl

theorem fails_decodeTests (d : EnumDeclaration) {tested : List Scalar}
    (h : ∀ s ∈ tested, L.bareEquals raw (.scalar s) = false) :
    ∀ t ∈ tested.map (decodeTest type), Fails L (d.scope [("raw", raw)] []) t :=
  List.forall_mem_map.2 fun s hs => ⟨raw, .scalar s, rfl, rfl, h s hs⟩

theorem fails_encodeTests (d : EnumDeclaration) (inherited : List (String × Object κ))
    {tested : List Scalar} (h : ∀ s ∈ tested, memberOf s ≠ name) :
    ∀ t ∈ tested.map (encodeTest type),
      Fails L (d.scope [("this", .constant ⟨type, name⟩)] inherited) t := by
  refine List.forall_mem_map.2 fun s hs =>
    ⟨.constant ⟨type, name⟩, .constant ⟨type, memberOf s⟩, rfl, rfl, ?_⟩
  simpa [Library.bareEquals] using (h s hs).symm

/-- What is equal to no literal is decoded to the sentinel. -/
theorem fromMap?_eq_sentinel (h : ∀ s ∈ literals, L.bareEquals raw (.scalar s) = false) :
    (ofLiterals type wire literals).fromMap? L raw = some (.constant ⟨type, Naming.sentinel⟩) :=
  run_append_of_fails (fails_decodeTests _ h) _

/-- Without literals on the wire, and for the sentinel, a constant is encoded by its name. -/
theorem toMap?_eq_name (h : ∀ s ∈ (if wire then literals else []), memberOf s ≠ name) :
    (ofLiterals type wire literals).toMap? L name = some (.scalar (.str name)) :=
  (run_append_of_fails (fails_encodeTests _ _ h) _).trans (eval_name _ _)

/-- Once the tests of the literals before it have failed, the test of a literal comes next. -/
theorem run_map_split {scope : String → Option (Object κ)} {tests : Scalar → Statement}
    {before after : List Scalar} (s : Scalar) (h : ∀ t ∈ before.map tests, Fails L scope t)
    (rest : List Statement) : run L scope ((before ++ s :: after).map tests ++ rest) =
      run L scope (tests s :: (after.map tests ++ rest)) := by
  rw [List.map_append, List.map_cons, List.append_assoc, run_append_of_fails h, List.cons_append]

end Methods

section RoundTrip

variable {κ : Type u} {L : Library κ} {type : String} {wire : Bool} {literals : List Scalar}

/-- A literal is decoded to its member, since no literal before it is equal to it. -/
theorem fromMap?_literal (hfinite : ∀ s ∈ literals, s.IsFinite)
    (hvalues : literals.Pairwise fun s t => t.equals s = false) {s : Scalar} (hs : s ∈ literals) :
    (ofLiterals type wire literals).fromMap? L (.scalar s) =
      some (.constant ⟨type, memberOf s⟩) := by
  have hself : L.bareEquals (.scalar s) (.scalar s) = true :=
    Scalar.equals_self (hfinite s hs).ne_nan
  obtain ⟨before, after, rfl⟩ := List.append_of_mem hs
  obtain ⟨-, -, hbefore⟩ := List.pairwise_append.1 hvalues
  have hfails : ∀ t ∈ before, L.bareEquals (.scalar s) (.scalar t) = false :=
    fun t ht => hbefore t ht s List.mem_cons_self
  exact (run_map_split s (fails_decodeTests _ hfails) _).trans (run_test rfl rfl hself _)

/-- A member is encoded to its literal, since no member before it has its name. -/
theorem toMap?_member (hnames : (literals.map memberOf).Nodup) {s : Scalar} (hs : s ∈ literals) :
    (ofLiterals type true literals).toMap? L (memberOf s) = some (.scalar s) := by
  obtain ⟨before, after, rfl⟩ := List.append_of_mem hs
  rw [List.map_append, List.map_cons] at hnames
  obtain ⟨-, -, hbefore⟩ := List.nodup_append.1 hnames
  have hfails : ∀ t ∈ before, memberOf t ≠ memberOf s :=
    fun t ht => hbefore _ (List.mem_map_of_mem ht) _ List.mem_cons_self
  exact (run_map_split s (fails_encodeTests _ _ hfails) _).trans
    (run_test rfl rfl (beq_self_eq_true _) _)

theorem exists_str_of_encodedType (h : (ofLiterals type true literals).encodedType = "String")
    {s : Scalar} (hs : s ∈ literals) : ∃ text, s = .str text := by
  have hall : literals.all (·.toJson.isString) = true := by
    by_contra hall
    have hdynamic : (ofLiterals type true literals).encodedType = dynamicText := by
      simp only [ofLiterals, Bool.not_true, Bool.false_or, if_neg hall]
    rw [hdynamic] at h
    exact absurd h (by decide)
  have hstring := List.all_eq_true.1 hall s hs
  cases s with
  | str text => exact ⟨text, rfl⟩
  | _ => cases hstring

/-- Where the encoded type is a string, every constant is encoded to one. -/
theorem exists_toMap?_eq_str (hnames : (literals.map memberOf).Nodup)
    (htype : (ofLiterals type wire literals).encodedType = "String") {name : String}
    (hname : name ∈ (ofLiterals type wire literals).constants) :
    ∃ text, (ofLiterals type wire literals).toMap? L name = some (.scalar (.str text)) := by
  cases wire with
  | false => exact ⟨name, toMap?_eq_name fun s hs => absurd hs List.not_mem_nil⟩
  | true =>
    rcases List.mem_append.1 hname with hmember | hsentinel
    · obtain ⟨s, hs, rfl⟩ := List.mem_map.1 hmember
      obtain ⟨text, rfl⟩ := exists_str_of_encodedType htype hs
      exact ⟨text, toMap?_member hnames hs⟩
    · rw [List.mem_singleton] at hsentinel
      subst hsentinel
      exact ⟨_, toMap?_eq_name fun s _ => memberOf_ne List.mem_cons_self s⟩

end RoundTrip

end EnumDeclaration

/-- Literals of all types; the text of none of them is the name of its member. -/
def mixedLiterals : List Scalar :=
  [.str "OPEN", .str "it's $5", .int (-3), .float (.ofDecimal false 15 (-1)), .bool true, .null]

end DartModels.Dart
