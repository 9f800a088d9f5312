import DartModels.Dart.EnumFile
import DartModels.Generation.Draft
import DartModels.Proofs.Dart.FlatText

/-! # Brackets of declarations

The declarations of models and enumerations close all brackets that they open. It is enough that
names are flat, and so are they all; texts of the schema stand in literals.
-/

namespace DartModels.Dart

open Model Naming Text

section Expressions

/-- The names in an expression are flat. -/
def Expr.HasFlatNames : Expr → Prop
  | .named name => IsFlat name
  | .entry _ => True
  | .nonNull e | .encoded e | .asList _ e => e.HasFlatNames
  | .unlessNull test value => test.HasFlatNames ∧ value.HasFlatNames
  | .listFrom item e => IsFlat item ∧ e.HasFlatNames
  | .decoded type e => IsFlat type ∧ e.HasFlatNames
  | .mapItems _ e body => e.HasFlatNames ∧ body.HasFlatNames

theorem isFlat_mark (nullable : Bool) : IsFlat (Expr.mark nullable) := by
  cases nullable <;> decide

/-- Every expression closes the brackets that it opens. -/
theorem turns_text {e : Expr} (h : e.HasFlatNames) : Turns e.text [] [] := by
  have hround : Turns ")" [')'] [] := turns_plain rfl
  induction e with
  | named name => exact h.turns []
  | entry key =>
    have hopen : Turns "json[" [] [']'] := turns_plain rfl
    have hclose : Turns "]" [']'] [] := turns_plain rfl
    exact (hopen.append (turns_quote key [']'])).append hclose
  | nonNull e ih => exact (ih h).append (IsFlat.turns (by decide) [])
  | unlessNull test value ihtest ihvalue =>
    exact ((ihtest h.1).append (IsFlat.turns (by decide) [])).append (ihvalue h.2)
  | listFrom item e ih =>
    have hopen : Turns ">.from(" [] [')'] := turns_plain rfl
    have htype : Turns ("List<" ++ item) [] [] :=
      ((by decide : IsFlat "List<").append h.1).turns []
    exact ((htype.append hopen).append ((ih h.2).anywhere [')'])).append hround
  | decoded type e ih =>
    have hopen : Turns ".fromMap(" [] [')'] := turns_plain rfl
    exact (((h.1.turns []).append hopen).append ((ih h.2).anywhere [')'])).append hround
  | encoded e ih => exact (ih h).append (turns_plain rfl)
  | asList nullable e ih =>
    have hopen : Turns "(" [] [')'] := turns_plain rfl
    have hcast : Turns " as List" [')'] [')'] := turns_plain rfl
    exact (((hopen.append ((ih h).anywhere [')'])).append hcast).append
      ((isFlat_mark nullable).turns [')'])).append hround
  | mapItems nullable e body ih ihbody =>
    have hopen : Turns ".map((" [] [')', ')'] := turns_plain rfl
    have hitem : Turns Expr.itemName [')', ')'] [')', ')'] := turns_plain rfl
    have harrow : Turns ") => " [')', ')'] [')'] := turns_plain rfl
    have hclose : Turns ").toList()" [')'] [] := turns_plain rfl
    exact ((((((ih h.1).append ((isFlat_mark nullable).turns [])).append hopen).append
      hitem).append harrow).append ((ihbody h.2).anywhere [')'])).append hclose

theorem hasFlatNames_guarded {source e : Expr} (hs : source.HasFlatNames) (he : e.HasFlatNames)
    (nullable : Bool) : (guarded nullable source e).HasFlatNames := by
  cases nullable with
  | false => exact he
  | true => exact ⟨hs, he⟩

theorem hasFlatNames_item : (Expr.named Expr.itemName).HasFlatNames :=
  (by decide : IsFlat Expr.itemName)

theorem hasFlatNames_decode {t : TypeRef} (ht : HasFlatNames t) {source : Expr}
    (hs : source.HasFlatNames) (nullable : Bool) : (decode source nullable t).HasFlatNames := by
  induction t generalizing source nullable with
  | dynamic => exact hs
  | primitive p => exact hs
  | model name path =>
    have he : (Expr.decoded name source).HasFlatNames := ⟨ht, hs⟩
    exact hasFlatNames_guarded hs he nullable
  | enumeration declaration path =>
    have he : (Expr.decoded declaration.name source).HasFlatNames := ⟨ht, hs⟩
    exact hasFlatNames_guarded hs he nullable
  | list item ih =>
    rw [decode]
    split
    · have he : (Expr.listFrom (typeText item) source).HasFlatNames := ⟨isFlat_typeText ht, hs⟩
      exact hasFlatNames_guarded hs he nullable
    · exact ⟨hs, ih ht hasFlatNames_item false⟩

theorem hasFlatNames_encode {t : TypeRef} (ht : HasFlatNames t) {value : Expr}
    (hv : value.HasFlatNames) : (encode value t).HasFlatNames := by
  induction t generalizing value with
  | dynamic => exact hv
  | primitive p => exact hv
  | model name path => exact hv
  | enumeration declaration path => exact hv
  | list item ih =>
    rw [encode]
    split
    · exact hv
    · exact ⟨hv, ih ht hasFlatNames_item⟩

/-- A field whose name and type are written flat. -/
structure FlatField (f : Field) : Prop where
  name : IsFlat f.name
  type : HasFlatNames f.type

variable {f : Field}

theorem FlatField.turns_decodeField (h : FlatField f) : Turns (decodeField f).text [] [] := by
  have hs : (Expr.entry f.schemaName).HasFlatNames := trivial
  exact turns_text (hasFlatNames_decode h.type hs f.isNullable)

theorem FlatField.turns_encodeField (h : FlatField f) : Turns (encodeField f).text [] [] := by
  have hencoded : (encode (.nonNull (.named f.name)) f.type).HasFlatNames :=
    hasFlatNames_encode h.type h.name
  refine turns_text ?_
  unfold encodeField
  split
  · next e he => exact (he ▸ hencoded : (Expr.nonNull e).HasFlatNames)
  · exact hencoded

theorem FlatField.isFlat_fieldTypeText (h : FlatField f) : IsFlat (fieldTypeText f) := by
  unfold fieldTypeText
  dsimp only
  split
  · exact (isFlat_typeText h.type).append (by decide)
  · exact isFlat_typeText h.type

theorem FlatField.turns_equalityText (h : FlatField f) (o : Options) :
    Turns (equalityText o f) [] [] := by
  unfold equalityText
  split
  · have hopen : Turns ("const DeepCollectionEquality().equals(other." ++ f.name ++ ", ") []
        [')'] := h.name.turns_between rfl rfl
    exact (hopen.append (h.name.turns [')'])).append (turns_plain rfl)
  · exact ((((by decide : IsFlat "other.").append h.name).append (by decide)).append
      h.name).turns []

theorem FlatField.turns_hashText (h : FlatField f) (o : Options) : Turns (hashText o f) [] [] := by
  unfold hashText
  split
  · exact h.name.turns_between rfl rfl
  · exact (h.name.append (by decide)).turns []

end Expressions

section Models

variable {name : String} {fields : List Field}

theorem turns_statement {operator : String} (ho : Turns operator [] []) {texts : List String}
    (h : ∀ text ∈ texts, Turns text [] []) : Turns (unlines (statement operator texts)) [] [] := by
  induction texts with
  | nil => exact .nil
  | cons first rest ih =>
    obtain ⟨hfirst, hrest⟩ := List.forall_mem_cons.1 h
    cases rest with
    | nil => exact (hfirst.append (IsFlat.turns (by decide) [])).line
    | cons next rest => exact (hfirst.append ho).cons (ih hrest)

theorem turns_constructorLines (hname : IsFlat name) (h : ∀ f ∈ fields, FlatField f) :
    Turns (unlines (constructorLines name fields)) [] [] := by
  unfold constructorLines
  split
  · exact (hname.turns_between rfl rfl).line
  · have hopen : Turns ("  " ++ name ++ "(\x7b") [] ['\x7d', ')'] :=
      hname.turns_between rfl rfl
    have hclose : Turns "  \x7d);" ['\x7d', ')'] [] := turns_plain rfl
    refine (hopen.line.lines (turns_unlines_of_forall ?_ _)).lines hclose.line
    simp only [List.forall_mem_map]
    intro f hf
    exact (h f hf).name.turns_between rfl rfl

theorem turns_decoderLines (hname : IsFlat name) (h : ∀ f ∈ fields, FlatField f) :
    Turns (unlines (decoderLines name fields)) [] [] := by
  have hopen : Turns ("  factory " ++ name ++ ".fromMap(Map<String, dynamic> json) \x7b") []
      ['\x7d'] := hname.turns_between rfl rfl
  have hclose : Turns "  \x7d" ['\x7d'] [] := turns_plain rfl
  unfold decoderLines
  refine (hopen.line.lines ?_).lines hclose.line
  split
  · exact (hname.turns_between rfl rfl).line
  · have hcall : Turns ("    return " ++ name ++ "(") ['\x7d'] [')', '\x7d'] :=
      hname.turns_between rfl rfl
    have hend : Turns "    );" [')', '\x7d'] ['\x7d'] := turns_plain rfl
    refine (hcall.line.lines (turns_unlines_of_forall ?_ _)).lines hend.line
    simp only [List.forall_mem_map]
    intro f hf
    have hlabel : Turns ("      " ++ f.name ++ ": ") [] [] :=
      (h f hf).name.turns_between rfl rfl
    exact (hlabel.append (h f hf).turns_decodeField).append (IsFlat.turns (by decide) [])

theorem turns_encoderLines (h : ∀ f ∈ fields, FlatField f) :
    Turns (unlines (encoderLines fields)) [] [] := by
  have hopen : Turns "  Map<String, dynamic> toMap() \x7b" [] ['\x7d'] := turns_plain rfl
  have hmap : Turns "    return <String, dynamic>\x7b" ['\x7d'] ['\x7d', '\x7d'] := turns_plain rfl
  have hend : Turns "    \x7d;" ['\x7d', '\x7d'] ['\x7d'] := turns_plain rfl
  have hclose : Turns "  \x7d" ['\x7d'] [] := turns_plain rfl
  unfold encoderLines
  refine ((hopen.cons hmap.line).lines (turns_unlines_of_forall ?_ _)).lines
    (hend.cons hclose.line)
  simp only [List.forall_mem_map]
  intro f hf
  have hif : Turns ("      if (" ++ f.name ++ " != null) ") [] [] :=
    (h f hf).name.turns_between rfl rfl
  have hkey := hif.append (turns_quote f.schemaName [])
  exact ((hkey.append (IsFlat.turns (by decide) [])).append (h f hf).turns_encodeField).append
    (IsFlat.turns (by decide) [])

theorem turns_jsonLines (hname : IsFlat name) : Turns (unlines (jsonLines name)) [] [] := by
  have hencode : Turns "  String toJson() => jsonEncode(toMap());" [] [] := turns_plain rfl
  have hfactory : Turns ("  factory " ++ name ++ ".fromJson(String source) =>") [] [] :=
    hname.turns_between rfl rfl
  have hdecode : Turns ("      " ++ name ++
      ".fromMap(jsonDecode(source) as Map<String, dynamic>);") [] [] :=
    hname.turns_between rfl rfl
  exact hencode.cons (Turns.nil.cons (hfactory.cons hdecode.line))

theorem turns_equalityLines (hname : IsFlat name) (h : ∀ f ∈ fields, FlatField f) (o : Options) :
    Turns (unlines (equalityLines o name fields)) [] [] := by
  have hoverride : Turns "  @override" [] [] := turns_plain rfl
  have hopen : Turns "  bool operator ==(Object other) \x7b" [] ['\x7d'] := turns_plain rfl
  have hsame : Turns "    if (identical(this, other)) return true;" ['\x7d'] ['\x7d'] :=
    turns_plain rfl
  have hclose : Turns "  \x7d" ['\x7d'] [] := turns_plain rfl
  have htests : Turns (unlines (statement " &&" (s!"    return other is {name}" ::
      fields.map fun f => "        " ++ equalityText o f))) [] [] := by
    refine turns_statement (turns_plain rfl) ?_
    simp only [List.forall_mem_cons, List.forall_mem_map]
    refine ⟨((by decide : IsFlat "    return other is ").append hname).turns [], ?_⟩
    intro f hf
    exact (IsFlat.turns (by decide) []).append ((h f hf).turns_equalityText o)
  exact ((hoverride.cons (hopen.cons hsame.line)).lines (htests.anywhere _)).lines hclose.line

theorem turns_hashLines (h : ∀ f ∈ fields, FlatField f) (o : Options) :
    Turns (unlines (hashLines o fields)) [] [] := by
  have hoverride : Turns "  @override" [] [] := turns_plain rfl
  have hopen : Turns "  int get hashCode \x7b" [] ['\x7d'] := turns_plain rfl
  have hclose : Turns "  \x7d" ['\x7d'] [] := turns_plain rfl
  unfold hashLines
  refine ((hoverride.cons hopen.line).lines (Turns.anywhere ?_ _)).lines hclose.line
  have hhashes : ∀ hash ∈ fields.map (hashText o), Turns hash [] [] := by
    simp only [List.forall_mem_map]
    exact fun f hf => (h f hf).turns_hashText o
  split
  · exact (IsFlat.turns (by decide) []).line
  · next first rest hmap =>
    rw [hmap, List.forall_mem_cons] at hhashes
    refine turns_statement (IsFlat.turns (by decide) []) ?_
    simp only [List.forall_mem_cons, List.forall_mem_map]
    refine ⟨(IsFlat.turns (by decide) []).append hhashes.1, ?_⟩
    exact fun hash hr => (IsFlat.turns (by decide) []).append (hhashes.2 hash hr)

theorem mem_unlines {c : Char} {lines : List String} (h : c ∈ (unlines lines).toList) :
    c = '\n' ∨ ∃ line ∈ lines, c ∈ line.toList := by
  induction lines with
  | nil => cases h
  | cons first rest ih =>
    have hc : c ∈ first.toList ∨ c = '\n' ∨ c ∈ (unlines rest).toList := by
      simpa [unlines_cons] using h
    rcases hc with hc | hc | hc
    · exact .inr ⟨first, List.mem_cons_self, hc⟩
    · exact .inl hc
    · exact (ih hc).imp_right fun ⟨line, hline, hmem⟩ => ⟨line, List.mem_cons_of_mem _ hline, hmem⟩

theorem mem_commaBetween {line : String} {lines : List String} (h : line ∈ commaBetween lines) :
    ∃ first ∈ lines, line = first ∨ line = first ++ "," := by
  induction lines with
  | nil => cases h
  | cons first rest ih =>
    cases rest with
    | nil => exact ⟨first, List.mem_cons_self, .inl (List.mem_singleton.1 h)⟩
    | cons next rest =>
      rcases List.mem_cons.1 h with rfl | h
      · exact ⟨first, List.mem_cons_self, .inr rfl⟩
      · obtain ⟨other, hother, hline⟩ := ih h
        exact ⟨other, List.mem_cons_of_mem _ hother, hline⟩

/-- What is described between triple quotes holds no quote itself. -/
theorem quote_notMem_commaBetween (h : ∀ f ∈ fields, FlatField f) :
    '"' ∉ (unlines (commaBetween (fields.map fun f => s!"  {f.name}: ${f.name}"))).toList := by
  intro hmem
  obtain hnewline | ⟨line, hline, hc⟩ := mem_unlines hmem
  · cases hnewline
  · obtain ⟨first, hfirst, hcomma⟩ := mem_commaBetween hline
    obtain ⟨f, hf, rfl⟩ := List.mem_map.1 hfirst
    have hflat : IsFlat ("  " ++ f.name ++ ": $" ++ f.name) :=
      (((by decide : IsFlat "  ").append (h f hf).name).append (by decide)).append (h f hf).name
    have hall : IsFlat line := by
      rcases hcomma with rfl | rfl
      · exact hflat
      · exact hflat.append (by decide)
    exact absurd (hall _ hc) (by decide)

theorem turns_descriptionLines (hname : IsFlat name) (h : ∀ f ∈ fields, FlatField f) :
    Turns (unlines (descriptionLines name fields)) [] [] := by
  let inside := name ++ "(\n" ++
    unlines (commaBetween (fields.map fun f => s!"  {f.name}: ${f.name}")) ++ ")"
  have htext : unlines (descriptionLines name fields) =
      "  @override\n  String toString() \x7b\n    return " ++ ("\"\"\"" ++ inside ++ "\"\"\"") ++
        ";\n  \x7d\n" := by
    apply String.toList_injective
    simp [descriptionLines, inside, unlines, toString]
  have hinside : '"' ∉ inside.toList := by
    have hquote : '"' ∉ name.toList := fun hc => absurd (hname _ hc) (by decide)
    have hfields := quote_notMem_commaBetween h
    simp only [inside, String.toList_append, List.mem_append, not_or]
    exact ⟨⟨⟨hquote, by decide⟩, hfields⟩, by decide⟩
  have hopen : Turns "  @override\n  String toString() \x7b\n    return " [] ['\x7d'] :=
    turns_plain rfl
  have hclose : Turns ";\n  \x7d\n" ['\x7d'] [] := turns_plain rfl
  rw [htext]
  exact (hopen.append (turns_block hinside _)).append hclose

theorem turns_classLines (hname : IsFlat name) (h : ∀ f ∈ fields, FlatField f) (o : Options) :
    Turns (unlines (classLines o name fields)) [] [] := by
  have hopen : Turns ("class " ++ name ++ " \x7b") [] ['\x7d'] :=
    hname.turns_between rfl rfl
  have hclose : Turns "\x7d" ['\x7d'] [] := turns_plain rfl
  have hdeclarations : Turns
      (unlines (fields.map fun f => s!"  final {fieldTypeText f} {f.name};")) [] [] := by
    refine turns_unlines_of_forall ?_ []
    simp only [List.forall_mem_map]
    intro f hf
    exact (((((by decide : IsFlat "  final ").append (h f hf).isFlat_fieldTypeText).append
      (by decide)).append (h f hf).name).append (by decide)).turns []
  have hblank : Turns (unlines [""]) ['\x7d'] ['\x7d'] := Turns.nil.line
  have hgap : Turns (unlines (if fields.isEmpty then [] else [""])) ['\x7d'] ['\x7d'] := by
    split
    · exact .nil
    · exact hblank
  have hheader := (hopen.line.lines (hdeclarations.anywhere _)).lines hgap
  have hconversions := ((((hheader.lines
    ((turns_constructorLines hname h).anywhere _)).lines hblank).lines
    ((turns_decoderLines hname h).anywhere _)).lines hblank).lines
    ((turns_encoderLines h).anywhere _)
  have htexts := (((hconversions.lines hblank).lines ((turns_jsonLines hname).anywhere _)).lines
    hblank).lines ((turns_descriptionLines hname h).anywhere _)
  exact ((((htexts.lines hblank).lines ((turns_equalityLines hname h o).anywhere _)).lines
    hblank).lines ((turns_hashLines h o).anywhere _)).lines hclose.line

end Models

section Enumerations

/-- An enumeration whose names are flat and whose members stand for scalars. -/
structure FlatEnumeration (e : Enumeration) : Prop where
  name : IsFlat e.name
  members : ∀ m ∈ e.members, IsFlat m.name
  literals : ∀ m ∈ e.members, m.literal.isScalar = true

variable {e : Enumeration}

theorem isFlat_encodedTypeText (wire : Bool) (e : Enumeration) :
    IsFlat (encodedTypeText wire e) := by
  unfold encodedTypeText
  split <;> decide

theorem FlatEnumeration.turns_memberTests (h : FlatEnumeration e) :
    Turns (unlines (memberTests e)) [] [] := by
  have hopen : Turns "    if (raw == " [] [')'] := turns_plain rfl
  have hreturn : Turns ") return " [')'] [] := turns_plain rfl
  refine turns_unlines_of_forall ?_ []
  simp only [memberTests, List.forall_mem_map]
  intro m hm
  have htest := (hopen.append (turns_literal (h.literals m hm) [')'])).append hreturn
  exact (((htest.append (h.name.turns [])).append (IsFlat.turns (by decide) [])).append
    ((h.members m hm).turns [])).append (IsFlat.turns (by decide) [])

theorem FlatEnumeration.turns_wireLines (h : FlatEnumeration e) :
    Turns (unlines (wireLines e)) [] [] := by
  have hopen : Turns "    if (this == " [] [')'] := turns_plain rfl
  have hreturn : Turns ") return " [')'] [] := turns_plain rfl
  refine turns_unlines_of_forall ?_ []
  simp only [wireLines, List.forall_mem_map]
  intro m hm
  have hthis := (hopen.append (h.name.turns [')'])).append ((by decide : IsFlat ".").turns [')'])
  have htest := (hthis.append ((h.members m hm).turns [')'])).append hreturn
  exact (htest.append (turns_literal (h.literals m hm) [])).append (IsFlat.turns (by decide) [])

theorem FlatEnumeration.turns_enumLines (h : FlatEnumeration e) (wire : Bool) :
    Turns (unlines (enumLines wire e)) [] [] := by
  have hopen : Turns ("enum " ++ e.name ++ " \x7b") [] ['\x7d'] :=
    h.name.turns_between rfl rfl
  have hmembers : Turns (unlines (e.members.map fun m => s!"  {m.name},")) [] [] := by
    refine turns_unlines_of_forall ?_ []
    simp only [List.forall_mem_map]
    intro m hm
    exact (h.members m hm).turns_between rfl rfl
  have hsentinel : Turns "  unknown;" ['\x7d'] ['\x7d'] := turns_plain rfl
  have hencoder : Turns ("  " ++ encodedTypeText wire e ++ " toMap() \x7b") ['\x7d']
      ['\x7d', '\x7d'] :=
    (isFlat_encodedTypeText wire e).turns_between rfl rfl
  have hwire : Turns (unlines (if wire then wireLines e else [])) [] [] := by
    split
    · exact h.turns_wireLines
    · exact .nil
  have hreturn : Turns "    return name;" ['\x7d', '\x7d'] ['\x7d', '\x7d'] := turns_plain rfl
  have hclose : Turns "  \x7d" ['\x7d', '\x7d'] ['\x7d'] := turns_plain rfl
  have hdecoder : Turns ("  factory " ++ e.name ++ ".fromMap(dynamic raw) \x7b") ['\x7d']
      ['\x7d', '\x7d'] :=
    h.name.turns_between rfl rfl
  have hdefault : Turns ("    return " ++ e.name ++ "." ++ Naming.sentinel ++ ";")
      ['\x7d', '\x7d'] ['\x7d', '\x7d'] :=
    ((((by decide : IsFlat "    return ").append h.name).append (by decide)).append
      (by decide)).append (by decide) |>.turns _
  have hend : Turns "\x7d" ['\x7d'] [] := turns_plain rfl
  have hheader := (hopen.line.lines (hmembers.anywhere _)).lines
    (hsentinel.cons (Turns.nil.cons hencoder.line))
  have hconversions := (hheader.lines (hwire.anywhere _)).lines
    (hreturn.cons (hclose.cons (Turns.nil.cons hdecoder.line)))
  exact (hconversions.lines (h.turns_memberTests.anywhere _)).lines
    (hdefault.cons (hclose.cons hend.line))

end Enumerations

end DartModels.Dart
