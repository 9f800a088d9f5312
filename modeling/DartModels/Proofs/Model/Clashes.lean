import DartModels.Proofs.Model.Leaves
import DartModels.Proofs.Model.Names

/-! # Names that clash

Members of an enumeration that share a name are reported with the property that declares it, and
fields that share one in the last record. A report lists just the names that occur at least twice.
-/

namespace DartModels.Model

open Naming Schema

variable {d : Document} {o : Options} {names : List String}

/-- The names that a list has at least twice, each once, in ascending order. -/
structure ListsRepeated (names listed : List String) : Prop where
  ascending : listed.Pairwise (· < ·)
  mem_iff : ∀ n, n ∈ listed ↔ 2 ≤ names.count n

theorem listsRepeated_duplicates (names : List String) :
    ListsRepeated names (duplicates names) where
  ascending := pairwise_sortNames _
  mem_iff n := by
    rw [duplicates, mem_sortNames, List.mem_filter, decide_eq_true_iff]
    refine and_iff_right_of_imp fun h => List.count_pos_iff.1 ?_
    omega

theorem duplicates_eq_nil_iff : duplicates names = [] ↔ names.Nodup := by
  rw [List.eq_nil_iff_forall_not_mem, List.nodup_iff_count_le_one]
  refine forall_congr' fun n => ?_
  rw [(listsRepeated_duplicates names).mem_iff]
  omega

/-- Another name that is not in the list adds nothing to what is repeated in it. -/
theorem duplicates_cons_of_notMem {name : String} (h : name ∉ names) :
    duplicates (name :: names) = duplicates names := by
  have hone : ¬ 2 ≤ (name :: names).count name := by
    rw [List.count_cons_self, List.count_eq_zero_of_not_mem h]
    omega
  rw [duplicates, duplicates, List.filter_cons_of_neg (by simpa using hone)]
  refine congrArg sortNames (List.filter_congr fun n hn => ?_)
  have hne : name ≠ n := by
    rintro rfl
    exact h hn
  rw [List.count_cons_of_ne hne]

/-- No member has the name of the sentinel, which is reserved. -/
theorem sentinel_notMem_memberNames (property : String) (values : List Json) :
    sentinel ∉ (Enumeration.ofValues property values).memberNames := by
  intro h
  obtain ⟨m, hm, hname⟩ := List.mem_map.1 h
  exact (isLegal_of_mem_members m hm).not_reserved (hname ▸ List.mem_cons_self)

section Reports

/-- A warning about names that clash, which lists them after it has said what they are about. -/
def WarnsOfClash (about : String) (names : List String) (r : Record) : Prop :=
  ¬ names.Nodup ∧ ∃ listed, ListsRepeated names listed ∧
    r = ⟨.warning, .analysis, about ++ ", ".intercalate listed⟩

def clashReport (about : String) (names : List String) : List Record :=
  match duplicates names with
  | [] => []
  | listed => [⟨.warning, .analysis, about ++ commaSeparated listed⟩]

theorem clashReport_cases (about : String) (names : List String) :
    (∃ r, WarnsOfClash about names r ∧ clashReport about names = [r]) ∨
      names.Nodup ∧ clashReport about names = [] := by
  unfold clashReport
  cases hlisted : duplicates names with
  | nil => exact .inr ⟨duplicates_eq_nil_iff.1 hlisted, rfl⟩
  | cons first rest =>
    have hclash : ¬ names.Nodup := by
      rw [← duplicates_eq_nil_iff, hlisted]
      exact List.cons_ne_nil first rest
    exact .inl ⟨_, ⟨hclash, _, hlisted ▸ listsRepeated_duplicates names, rfl⟩, rfl⟩

def Enumeration.clashIntroduction (e : Enumeration) : String :=
  s!"Enum {e.name} has duplicate members: "

def fieldClashIntroduction (model : String) : String :=
  s!"Class {model} has properties mapping to the same field: "

/-- The sentinel is counted among the members, which changes nothing. -/
theorem report_ofValues (property : String) (values : List Json) :
    let e := Enumeration.ofValues property values
    e.report = clashReport e.clashIntroduction e.memberNames := by
  dsimp only
  have hcounted (e : Enumeration) :
      e.report = clashReport e.clashIntroduction (sentinel :: e.memberNames) := rfl
  rw [hcounted, clashReport, duplicates_cons_of_notMem (sentinel_notMem_memberNames _ _),
    clashReport]

/-- The enumeration that a property declares at the bottom of its lists. -/
def Declares (p : Property) (e : Enumeration) : Prop :=
  ∃ values isList path, p.node.bottom = .enumeration values isList path ∧
    e = .ofValues p.name values

/-- What is reported of a property: the clashes among the members of the enumeration it declares. -/
def WarnsOfMembers (p : Property) (r : Record) : Prop :=
  ∃ e, Declares p e ∧ WarnsOfClash e.clashIntroduction e.memberNames r

theorem picks_reports (d : Document) (o : Options) (kept : List Property) :
    Picks WarnsOfMembers kept
      ((kept.flatMap fun p => (Field.ofProperty d o p).enumerations).flatMap
        Enumeration.report) := by
  rw [List.flatMap_assoc]
  refine Picks.of_forall fun p _ => ?_
  rw [enumerations_eq]
  unfold WarnsOfMembers Declares
  cases p.node.bottom with
  | enumeration values isList path =>
    dsimp only
    rw [List.flatMap_singleton, report_ofValues]
    rcases clashReport_cases _ (Enumeration.ofValues p.name values).memberNames with
      ⟨r, hr, heq⟩ | ⟨hdistinct, heq⟩
    · exact .inl ⟨r, ⟨_, ⟨values, isList, path, rfl, rfl⟩, hr⟩, heq⟩
    · refine .inr ⟨?_, heq⟩
      rintro r ⟨e, ⟨others, _, _, hnode, rfl⟩, hclash, -⟩
      obtain ⟨rfl, -⟩ := Node.enumeration.inj hnode
      exact hclash hdistinct
  | primitive | reference | list => exact .inr ⟨by simp, rfl⟩

theorem fieldNames_ofProperties (d : Document) (o : Options) (name : String)
    (kept : List Property) : (Analysis.ofProperties d o name kept).model.fields.map (·.name) =
      kept.map fun p => fieldName p.name := by
  rw [Analysis.fields_ofProperties, List.map_map]
  exact List.map_congr_left fun p _ => by rw [Function.comp_apply, Field.ofProperty]

theorem records_ofProperties (d : Document) (o : Options) (name : String) (kept : List Property) :
    let a := Analysis.ofProperties d o name kept
    a.records = a.model.enumerations.flatMap Enumeration.report ++
      clashReport (fieldClashIntroduction (typeName name)) (a.model.fields.map (·.name)) := rfl

/-- Where nothing is warned of, nothing clashes. -/
theorem nodup_of_clashReport {about : String}
    (h : ∀ r ∈ clashReport about names, r.level ≠ .warning) : names.Nodup := by
  rcases clashReport_cases about names with ⟨r, ⟨-, _, -, rfl⟩, heq⟩ | ⟨hdistinct, -⟩
  · exact absurd rfl (h _ (heq ▸ List.mem_singleton_self _))
  · exact hdistinct

theorem nodup_of_report {e : Enumeration} {property : String} {values : List Json}
    (he : e = .ofValues property values) (h : ∀ r ∈ e.report, r.level ≠ .warning) :
    (sentinel :: e.memberNames).Nodup := by
  subst he
  rw [report_ofValues] at h
  exact List.nodup_cons.2 ⟨sentinel_notMem_memberNames property values, nodup_of_clashReport h⟩

end Reports

/-- An analysis reports the clashes among the members of each enumeration that a kept property
declares, in the order of the properties, then those among the fields, and nothing else. Where it
warns of nothing, the fields are distinct, and so are the members of each enumeration and the
sentinel. Only options that do not say whether to keep a property stop it. -/
theorem clashes_reported (d : Document) (o : Options) (A : Definition) :
    ((∃ a, analyze d o A = .ok a) ↔ ∀ p ∈ A.properties, (o.ignoresField p.name).isOk = true) ∧
    ∀ a, analyze d o A = .ok a →
      let kept := A.properties.filter fun p => o.ignoresField p.name = .ok false
      let names := kept.map fun p => fieldName p.name
      (∃ warnings final, a.records = warnings ++ final ∧ Picks WarnsOfMembers kept warnings ∧
        ((∃ r, WarnsOfClash (fieldClashIntroduction a.model.name) names r ∧ final = [r]) ∨
          names.Nodup ∧ final = [])) ∧
      ((∀ r ∈ a.records, r.level ≠ .warning) → (a.model.fields.map (·.name)).Nodup ∧
        ∀ e ∈ a.model.enumerations, (sentinel :: e.memberNames).Nodup) := by
  refine ⟨exists_analysis_iff d o A, fun a ha => ?_⟩
  obtain ⟨kept, hkept, rfl⟩ := analysis_eq ha
  rw [keptProperties_eq, keep_eq_ok_iff] at hkept
  obtain rfl := hkept.2
  rw [records_ofProperties]
  refine ⟨⟨_, _, rfl, ?_, ?_⟩, fun hquiet => ?_⟩
  · rw [Analysis.enumerations_ofProperties]
    exact picks_reports d o _
  · rw [Analysis.name_ofProperties, fieldNames_ofProperties]
    exact clashReport_cases _ _
  · rw [List.forall_mem_append, List.forall_mem_flatMap] at hquiet
    refine ⟨nodup_of_clashReport hquiet.2, fun e he => ?_⟩
    obtain ⟨p, -, values, he'⟩ := exists_property_of_mem_enumerations he
    exact nodup_of_report he' (hquiet.1 e he)

/-- Two fields of one name, and below a list two members of one name. -/
def crowded : Definition :=
  ⟨"User", [⟨"user_name", .primitive none ""⟩, ⟨"userName", .primitive none ""⟩,
    ⟨"size", .list (some (.enumeration [.str "x-l", .str "X_L", .str "unknown"] false "")) ""⟩]⟩

/-- A member that would be called like the sentinel. -/
def uncrowded : Definition :=
  ⟨"Role", [⟨"kind", .enumeration [.str "unknown", .str "admin"] false ""⟩]⟩

theorem clashes_reported_crowded :
    (∃ a r, analyze ⟨[crowded]⟩ {} crowded = .ok a ∧ r ∈ a.records ∧
      WarnsOfClash (fieldClashIntroduction a.model.name) ["userName", "userName", "size"] r) ∧
    ∃ a, analyze ⟨[uncrowded]⟩ {} uncrowded = .ok a ∧ (∀ r ∈ a.records, r.level ≠ .warning) ∧
      ∀ e ∈ a.model.enumerations, (sentinel :: e.memberNames).Nodup := by
  constructor
  · obtain ⟨hread, hreport⟩ := clashes_reported ⟨[crowded]⟩ {} crowded
    obtain ⟨a, ha⟩ := hread.2 (by decide +kernel)
    obtain ⟨⟨warnings, final, hrecords, -, hfinal⟩, -⟩ := hreport a ha
    have hnames : ((crowded.properties.filter fun p =>
        ({} : Options).ignoresField p.name = .ok false).map fun p => fieldName p.name) =
          ["userName", "userName", "size"] := by decide +kernel
    rw [hnames] at hfinal
    rcases hfinal with ⟨r, hr, rfl⟩ | ⟨hdistinct, -⟩
    · exact ⟨a, r, ha, hrecords ▸ List.mem_append_right _ List.mem_cons_self, hr⟩
    · exact absurd hdistinct (by decide)
  · have ha : analyze ⟨[uncrowded]⟩ {} uncrowded =
        .ok (.ofProperties ⟨[uncrowded]⟩ {} uncrowded.name uncrowded.properties) := by rfl
    have hquiet : ∀ r ∈ (Analysis.ofProperties ⟨[uncrowded]⟩ {} uncrowded.name
        uncrowded.properties).records, r.level ≠ .warning := by decide +kernel
    exact ⟨_, ha, hquiet, (((clashes_reported _ _ _).2 _ ha).2 hquiet).2⟩

example : (analyze ⟨[crowded]⟩ {} crowded).toOption.map (·.records) = some
    [⟨.warning, .analysis, "Enum Size has duplicate members: xL"⟩,
      ⟨.warning, .analysis, "Class User has properties mapping to the same field: userName"⟩] := by
  decide +kernel

end DartModels.Model
