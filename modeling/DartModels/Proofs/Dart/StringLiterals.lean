import DartModels.Proofs.Dart.Directives
import DartModels.Proofs.Dart.EnumMethods
import DartModels.Proofs.Model.Analysis

/-! # String literals

A string literal is read back as the text that was written, whatever stands behind it. The keys
under which a model reads and writes its map are therefore the schema names of its fields, and an
enumeration compares with the very strings it was declared with.
-/

namespace DartModels.Dart

open Model Naming Schema

section Replacements

/-- Text with every occurrence of a character replaced. -/
def replaced (c : Char) (text s : List Char) : List Char :=
  s.flatMap fun d => if d = c then text else [d]

/-- The characters that are escaped, in the order in which they are replaced, and their escapes. -/
def replacements : List (Char × List Char) :=
  [('\\', ['\\', '\\']), ('\'', ['\\', '\'']), ('$', ['\\', '$']), ('\n', ['\\', 'n']),
    ('\r', ['\\', 'r'])]

/-- All replacements carried out one after the other, each on the whole text. -/
def replacedInTurn (s : List Char) : List Char :=
  replacements.foldl (fun s r => replaced r.1 r.2 s) s

variable {c : Char}

theorem replaced_append (text s t : List Char) :
    replaced c text (s ++ t) = replaced c text s ++ replaced c text t :=
  List.flatMap_append

theorem replaced_singleton_of_ne {d : Char} (h : d ≠ c) (text : List Char) :
    replaced c text [d] = [d] := by
  simp [replaced, h]

theorem replacedInTurn_append (s t : List Char) :
    replacedInTurn (s ++ t) = replacedInTurn s ++ replacedInTurn t := by
  simp only [replacedInTurn, replacements, List.foldl_cons, List.foldl_nil, replaced_append]

/-- A character has one escape; the backslash in front of it is not escaped again, because the
backslash is replaced first. -/
theorem replacedInTurn_singleton (c : Char) : replacedInTurn [c] = escaped c := by
  by_cases h : c ∈ ['\\', '\'', '$', '\n', '\r']
  · simp only [List.mem_cons, List.not_mem_nil, or_false] at h
    rcases h with rfl | rfl | rfl | rfl | rfl <;> rfl
  · rw [escaped_eq_singleton_iff.2 h]
    simp only [List.mem_cons, List.not_mem_nil, or_false, not_or] at h
    obtain ⟨hbackslash, hquote, hdollar, hfeed, hreturn⟩ := h
    simp only [replacedInTurn, replacements, List.foldl_cons, List.foldl_nil]
    rw [replaced_singleton_of_ne hbackslash, replaced_singleton_of_ne hquote,
      replaced_singleton_of_ne hdollar, replaced_singleton_of_ne hfeed,
      replaced_singleton_of_ne hreturn]

/-- Replacing one character after the other writes the same escapes as one pass over the text. -/
theorem replacedInTurn_eq (s : List Char) : replacedInTurn s = s.flatMap escaped := by
  induction s with
  | nil => rfl
  | cons c s ih =>
    rw [← List.singleton_append, replacedInTurn_append, replacedInTurn_singleton, ih,
      List.flatMap_append, List.flatMap_singleton]

end Replacements

section Keys

/-- The key that a line of a decoder looks up. -/
def decodedKey? (line : String) : Option String := do
  let (_, rest) ← nameAfter? "      " line.toList
  let rest ← rest.dropPrefix? ": ".toList
  let rest := (rest.dropPrefix? "(".toList).getD rest
  let rest ← rest.dropPrefix? "json[".toList
  let (key, rest) ← readLiteral rest
  if "]".toList.isPrefixOf rest then some (String.ofList key) else none

/-- The key that a line of an encoder writes. -/
def encodedKey? (line : String) : Option String := do
  let (_, rest) ← nameAfter? "      if (" line.toList
  let rest ← rest.dropPrefix? " != null) ".toList
  let (key, rest) ← readLiteral rest
  if ": ".toList.isPrefixOf rest then some (String.ofList key) else none

variable {f : Field} {fields : List Field}

theorem dropPrefix?_append_self (a b : List Char) : (a ++ b).dropPrefix? a = some b :=
  List.dropPrefix?_append_of_beq _ (beq_self_eq_true _)

/-- The expression that decodes a field starts with the entry it looks up, which may stand in
parentheses. -/
theorem exists_text_decodeField (h : f.isNullable = true) : ∃ front ∈ ["", "("], ∃ rest,
    (decodeField f).text = front ++ ("json[" ++ quote f.schemaName ++ "]" ++ rest) := by
  have hentry : (Expr.entry f.schemaName).text = "json[" ++ quote f.schemaName ++ "]" := rfl
  have hguarded (e : Expr) : (guarded true (.entry f.schemaName) e).text =
      (Expr.entry f.schemaName).text ++ (" == null ? null : " ++ e.text) := by
    simp only [guarded, if_true, Expr.text, toString, String.append_assoc]
  have hplain (rest : String) : (Expr.entry f.schemaName).text ++ rest =
      "" ++ ("json[" ++ quote f.schemaName ++ "]" ++ rest) := by
    rw [hentry, String.empty_append]
  rw [decodeField, h]
  cases f.type with
  | dynamic => exact ⟨"", by simp, "", by rw [← hplain, String.append_empty]; rfl⟩
  | primitive => exact ⟨"", by simp, "", by rw [← hplain, String.append_empty]; rfl⟩
  | model => exact ⟨"", by simp, _, by rw [decode, hguarded, hplain]⟩
  | enumeration => exact ⟨"", by simp, _, by rw [decode, hguarded, hplain]⟩
  | list item =>
    rw [decode]
    split
    · exact ⟨"", by simp, _, by rw [hguarded, hplain]⟩
    · refine ⟨"(", by simp, " as List" ++ Expr.mark true ++ ")" ++ Expr.mark true ++ ".map((" ++
        Expr.itemName ++ ") => " ++ (decode (.named Expr.itemName) false item).text ++
        ").toList()", ?_⟩
      simp only [Expr.text, toString, String.append_assoc]

/-- The reader of a decoder takes the key from any line that starts so. -/
theorem decodedKey?_append {name key front : String} (rest : String)
    (hname : ∀ c ∈ name.toList, isIdentifierChar c = true) (hfront : front ∈ ["", "("]) :
    decodedKey? ("      " ++ name ++ ": " ++ (front ++ ("json[" ++ quote key ++ "]" ++ rest))) =
      some key := by
  have htext : ("      " ++ name ++ ": " ++
      (front ++ ("json[" ++ quote key ++ "]" ++ rest))).toList =
        "      ".toList ++ (name.toList ++ (": ".toList ++ (front.toList ++ ("json[".toList ++
          (stringLiteral key.toList ++ ("]".toList ++ rest.toList)))))) := by
    simp [quote]
  have hparenthesis (r : List Char) : ((front.toList ++ ("json[".toList ++ r)).dropPrefix?
      "(".toList).getD (front.toList ++ ("json[".toList ++ r)) = "json[".toList ++ r := by
    simp only [List.mem_cons, List.not_mem_nil, or_false] at hfront
    rcases hfront with rfl | rfl <;> rfl
  have hcolon (r : List Char) : (": ".toList ++ r).head?.any isIdentifierChar = false := rfl
  rw [decodedKey?, htext, nameAfter?_append hname (hcolon _)]
  dsimp only [Option.bind_eq_bind, Option.bind_some]
  rw [dropPrefix?_append_self, Option.bind_some, hparenthesis, dropPrefix?_append_self,
    Option.bind_some, readLiteral_stringLiteral]
  dsimp only [Option.bind_some]
  rw [if_pos (List.isPrefixOf_iff_prefix.2 (List.prefix_append _ _)), String.ofList_toList]

theorem decodedKey?_line (hname : ∀ c ∈ f.name.toList, isIdentifierChar c = true)
    (h : f.isNullable = true) :
    decodedKey? s!"      {f.name}: {(decodeField f).text}," = some f.schemaName := by
  obtain ⟨front, hfront, rest, htext⟩ := exists_text_decodeField h
  rw [htext, ← decodedKey?_append (rest ++ ",") hname hfront]
  simp [toString, String.append_assoc]

theorem encodedKey?_line (hname : ∀ c ∈ f.name.toList, isIdentifierChar c = true) :
    encodedKey? s!"      if ({f.name} != null) {quote f.schemaName}: {(encodeField f).text}," =
      some f.schemaName := by
  have htext :
      (s!"      if ({f.name} != null) {quote f.schemaName}: {(encodeField f).text},").toList =
        "      if (".toList ++ (f.name.toList ++ (" != null) ".toList ++
          (stringLiteral f.schemaName.toList ++
            (": ".toList ++ ((encodeField f).text ++ ",").toList)))) := by
    simp [quote, toString]
  have hblank (r : List Char) : (" != null) ".toList ++ r).head?.any isIdentifierChar = false := rfl
  rw [encodedKey?, htext, nameAfter?_append hname (hblank _)]
  dsimp only [Option.bind_eq_bind, Option.bind_some]
  rw [dropPrefix?_append_self, Option.bind_some, readLiteral_stringLiteral]
  dsimp only [Option.bind_some]
  rw [if_pos (List.isPrefixOf_iff_prefix.2 (List.prefix_append _ _)), String.ofList_toList]

theorem filterMap_map_line {read : String → Option String} {write : Field → String}
    (h : ∀ f ∈ fields, read (write f) = some f.schemaName) :
    (fields.map write).filterMap read = fields.map (·.schemaName) := by
  rw [List.filterMap_map, ← List.filterMap_eq_map]
  exact List.filterMap_congr h

/-- The keys that a decoder looks up are the schema names of the fields. -/
theorem filterMap_decodedKey? (name : String)
    (hnames : ∀ f ∈ fields, ∀ c ∈ f.name.toList, isIdentifierChar c = true)
    (hnullable : ∀ f ∈ fields, f.isNullable = true) :
    (decoderLines name fields).filterMap decodedKey? = fields.map (·.schemaName) := by
  have hopen : decodedKey? s!"  factory {name}.fromMap(Map<String, dynamic> json) \x7b" = none := by
    have htext : (s!"  factory {name}.fromMap(Map<String, dynamic> json) \x7b").toList =
        "  factory ".toList ++
          (name.toList ++ ".fromMap(Map<String, dynamic> json) \x7b".toList) := by
      simp [toString]
    rw [decodedKey?, htext]
    rfl
  have hreturn (ending : String) :
      decodedKey? (toString "    return " ++ toString name ++ toString ending) = none := by
    have htext : (toString "    return " ++ toString name ++ toString ending).toList =
        "    return ".toList ++ (name.toList ++ ending.toList) := by simp [toString]
    rw [decodedKey?, htext]
    rfl
  have hclose : decodedKey? "    );" = none := by rfl
  have hend : decodedKey? "  \x7d" = none := by rfl
  have hfields := filterMap_map_line fun f hf => decodedKey?_line (hnames f hf) (hnullable f hf)
  unfold decoderLines
  split
  · simp [hopen, hreturn, hend]
  · simp only [List.filterMap_append, List.filterMap_cons_none, List.filterMap_nil, hopen, hreturn,
      hclose, hend, hfields, List.nil_append, List.append_nil]

/-- The keys that an encoder writes are the schema names of the fields. -/
theorem filterMap_encodedKey?
    (hnames : ∀ f ∈ fields, ∀ c ∈ f.name.toList, isIdentifierChar c = true) :
    (encoderLines fields).filterMap encodedKey? = fields.map (·.schemaName) := by
  have hfields := filterMap_map_line fun f hf => encodedKey?_line (hnames f hf)
  have hopen : ["  Map<String, dynamic> toMap() \x7b",
      "    return <String, dynamic>\x7b"].filterMap encodedKey? = [] := by rfl
  have hend : ["    \x7d;", "  \x7d"].filterMap encodedKey? = [] := by rfl
  rw [encoderLines, List.filterMap_append, List.filterMap_append, hopen, hend, hfields,
    List.nil_append, List.append_nil]

end Keys

theorem quote_injective : Function.Injective quote := by
  intro s t h
  have hs := literalValue?_quote s
  rw [h, literalValue?_quote] at hs
  exact (Option.some.inj hs).symm

theorem memberTests_ofValues (property : String) (values : List Json) :
    memberTests (.ofValues property values) = values.map fun v =>
      s!"    if (raw == {literal v}) return {typeName property}.{memberName v.literalText};" := by
  simp only [memberTests, Enumeration.ofValues, List.map_map, Function.comp_def]

/-- The test of a literal that is a string compares with that string. -/
theorem forall₂_memberTests (property : String) (values : List Json) :
    List.Forall₂ (fun value line => ∀ s, value = .str s → ∃ member, readStatement line =
      some (.test (.variable "raw") (.scalar (.str s)) member)) values
      (memberTests (.ofValues property values)) := by
  rw [memberTests_ofValues, List.forall₂_map_right_iff, List.forall₂_same]
  intro value _ s hvalue
  have hfinite : (Scalar.str s).IsFinite := trivial
  have hread := readStatement_decodeTest (isIdentifier_typeName property) hfinite
  rw [hvalue]
  exact ⟨_, hread⟩

/-- A string literal is written by replacing one character after the other. Reading it in front of
any text ends where it ends and gives back what was written, so different texts have different
literals. Models read and write their maps under the schema names of their fields, and the tests of
an enumeration compare with its strings. -/
theorem string_literals_faithful :
    (∀ s : List Char, stringLiteral s = '\'' :: replacedInTurn s ++ ['\'']) ∧
    (∀ s rest : List Char, readLiteral (stringLiteral s ++ rest) = some (s, rest)) ∧
    Function.Injective quote ∧
    (∀ {d : Document} {o : Options} {A : Definition} {a : Analysis}, analyze d o A = .ok a →
      (decoderLines a.model.name a.model.fields).filterMap decodedKey? =
          a.model.fields.map (·.schemaName) ∧
        (encoderLines a.model.fields).filterMap encodedKey? =
          a.model.fields.map (·.schemaName)) ∧
    ∀ (property : String) (values : List Json),
      List.Forall₂ (fun value line => ∀ s, value = .str s → ∃ member, readStatement line =
        some (.test (.variable "raw") (.scalar (.str s)) member)) values
        (memberTests (.ofValues property values)) := by
  refine ⟨fun s => ?_, readLiteral_stringLiteral, quote_injective, fun {d o A a} h => ?_,
    forall₂_memberTests⟩
  · rw [stringLiteral, replacedInTurn_eq]
  · have hnames : ∀ f ∈ a.model.fields, ∀ c ∈ f.name.toList, isIdentifierChar c = true := by
      intro f hf
      rw [(field_of_analyze h hf).2]
      exact fun _ => isIdentifierChar_of_mem_fieldName
    exact ⟨filterMap_decodedKey? _ hnames fun f hf => (field_of_analyze h hf).1,
      filterMap_encodedKey? hnames⟩

/-- A definition whose property names hold what a literal has to escape. -/
def marks : Definition :=
  ⟨"Marks", ["it's", "it\\'s", "$it", "line\n"].map fun name => ⟨name, .list none ""⟩⟩

theorem string_literals_faithful_marks : ∃ a, analyze ⟨[marks]⟩ {} marks = .ok a ∧
    (decoderLines a.model.name a.model.fields).filterMap decodedKey? =
      ["it's", "it\\'s", "$it", "line\n"] := by
  obtain ⟨a, ha⟩ := (exists_analysis_iff ⟨[marks]⟩ {} marks).2 (by decide)
  obtain ⟨kept, hkept, rfl⟩ := analysis_eq ha
  obtain rfl : kept = marks.properties := (Except.ok.inj hkept).symm
  exact ⟨_, ha, (string_literals_faithful.2.2.2.1 ha).1.trans (by rfl)⟩

end DartModels.Dart
