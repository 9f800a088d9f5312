import Mathlib.Data.List.Forall2
import Mathlib.Tactic.Choose
import DartModels.Proofs.Dart.Evaluation
import DartModels.Proofs.Model.Analysis

/-! # Decoding undoes encoding

The two conversions recurse over a field type separately. Step for step, a decoder takes an encoded
value back to what was encoded, and so the conversions of a whole model undo each other.
-/

namespace DartModels.Dart

open Model DartModels.Dart.Value DartModels.Dart.Expr

universe u

variable {ι : Type u}

/-- The values of a type. A list has no null items unless its items are dynamic. -/
inductive HasType (R : Runtime ι) : TypeRef → Value ι → Prop
  | dynamic {v : Value ι} : v.IsJson → HasType R .dynamic v
  | integer (n : Int) : HasType R (.primitive .integer) (.int n)
  | string (s : String) : HasType R (.primitive .string) (.str s)
  | boolean (b : Bool) : HasType R (.primitive .boolean) (.bool b)
  | object {entries : List (String × Value ι)} :
      (map entries).IsJson → HasType R (.primitive .object) (.map entries)
  | model (i : ι) (path : String) : HasType R (.model (R.typeName i) path) (.instance i)
  | enumeration {i : ι} {e : Enumeration} (path : String) :
      R.typeName i = e.name → HasType R (.enumeration e path) (.instance i)
  | list {item : TypeRef} {items : List (Value ι)} :
      (∀ v ∈ items, HasType R item v) → HasType R (.list item) (.list items)

/-- An instance whose map form is JSON data that decodes to the instance again. -/
def Runtime.Restores (R : Runtime ι) (i : ι) : Prop :=
  ∃ y, R.toMap i = some y ∧ y.IsJson ∧ y ≠ .null ∧ R.fromMap (R.typeName i) y = some i

section Expressions

variable {R : Runtime ι} {scope : String → Option (Value ι)}

theorem eval_itemName (v : Value ι) :
    eval R (withItem v scope) (.named itemName) = some v := by
  rw [eval_named, withItem, if_pos rfl]

theorem eval_guarded_of_ne {source e : Expr} {y : Value ι} {nullable : Bool}
    (h : eval R scope source = some y) (hn : nullable = true → y ≠ .null) :
    eval R scope (guarded nullable source e) = eval R scope e := by
  cases nullable with
  | false => rfl
  | true =>
    rw [guarded, if_pos rfl, eval_unlessNull, h, Option.bind_some, unlessNull_of_ne (hn rfl)]

theorem eval_decoded_of_fromMap {type : String} {e : Expr} {y : Value ι} {i : ι}
    (h : eval R scope e = some y) (hi : R.fromMap type y = some i) :
    eval R scope (.decoded type e) = some (.instance i) := by
  rw [eval_decoded, h, Option.bind_some, decoded?, hi, Option.map_some]

theorem eval_mapItems_of_list {nullable : Bool} {e body : Expr} {items images : List (Value ι)}
    (h : eval R scope e = some (.list items))
    (hb : items.mapM (fun v => eval R (withItem v scope) body) = some images) :
    eval R scope (.mapItems nullable e body) = some (.list images) := by
  rw [eval_mapItems, h, Option.bind_some, mapItems?_list, hb, Option.map_some]

theorem eval_asList_of_list {nullable : Bool} {e : Expr} {items : List (Value ι)}
    (h : eval R scope e = some (.list items)) :
    eval R scope (.asList nullable e) = some (.list items) := by
  rw [eval_asList, h, Option.bind_some, asList?_list]

theorem eval_listFrom_of_list {type : String} {e : Expr} {items : List (Value ι)}
    (h : eval R scope e = some (.list items)) (hi : ∀ v ∈ items, v.isA type = true) :
    eval R scope (.listFrom type e) = some (.list items) := by
  rw [eval_listFrom, h, Option.bind_some, listOf?, if_pos (List.all_eq_true.2 hi)]

end Expressions

theorem mapM_of_forall₂ {α β : Type*} {f : α → Option β} {l : List α} {k : List β}
    (h : List.Forall₂ (fun a b => f a = some b) l k) : l.mapM f = some k := by
  induction h with
  | nil => rfl
  | cons ha _ ih =>
    rw [List.mapM_cons, ha, ih]
    rfl

namespace HasType

variable {R : Runtime ι} {t : TypeRef} {x : Value ι}

/-- Values of a raw type are JSON data of that type, and stand for themselves. -/
theorem of_isRaw (h : HasType R t x) (ht : isRaw t = true) :
    x.IsJson ∧ x.isA (typeText t) = true := by
  cases h with
  | dynamic hv => exact ⟨hv, isA_dynamic _⟩
  | integer n => exact ⟨nofun, rfl⟩
  | string s => exact ⟨nofun, rfl⟩
  | boolean b => exact ⟨nofun, rfl⟩
  | object hm => exact ⟨hm, rfl⟩
  | model | enumeration | list => cases ht

/-- Whatever expressions yield the value and its encoded form, the two conversions lead from each
to the other. A null check is harmless because only null is encoded as null. -/
theorem conversions (h : HasType R t x) (hr : ∀ i, Occurs i x → R.Restores i) :
    ∃ y : Value ι, y.IsJson ∧ (x ≠ .null → y ≠ .null) ∧
      (∀ scope value, eval R scope value = some x → eval R scope (encode value t) = some y) ∧
      ∀ scope source nullable, (nullable = true → y ≠ .null) → eval R scope source = some y →
        eval R scope (decode source nullable t) = some x := by
  induction h with
  | dynamic hv => exact ⟨_, hv, id, fun _ _ h => h, fun _ _ _ _ h => h⟩
  | integer n => exact ⟨.int n, nofun, id, fun _ _ h => h, fun _ _ _ _ h => h⟩
  | string s => exact ⟨.str s, nofun, id, fun _ _ h => h, fun _ _ _ _ h => h⟩
  | boolean b => exact ⟨.bool b, nofun, id, fun _ _ h => h, fun _ _ _ _ h => h⟩
  | object hm => exact ⟨_, hm, id, fun _ _ h => h, fun _ _ _ _ h => h⟩
  | model i path =>
    obtain ⟨y, hy, hj, hn, hd⟩ := hr i .here
    refine ⟨y, hj, fun _ => hn, ?_, ?_⟩
    · intro scope value hv
      rw [encode, eval_encoded, hv, Option.bind_some, encoded?, hy]
    · intro scope source nullable hs hy
      rw [decode, eval_guarded_of_ne hy hs, eval_decoded_of_fromMap hy hd]
  | @enumeration i e path he =>
    obtain ⟨y, hy, hj, hn, hd⟩ := hr i .here
    refine ⟨y, hj, fun _ => hn, ?_, ?_⟩
    · intro scope value hv
      rw [encode, eval_encoded, hv, Option.bind_some, encoded?, hy]
    · intro scope source nullable hs hy
      rw [decode, eval_guarded_of_ne hy hs, eval_decoded_of_fromMap hy (he ▸ hd)]
  | @list item items hi ih =>
    by_cases hraw : isRaw item = true
    · -- a list of raw items is its own encoding, and decoding copies it
      have hraws := fun v hv => (hi v hv).of_isRaw hraw
      refine ⟨.list items, isJson_list_iff.2 fun v hv => (hraws v hv).1, id, ?_, ?_⟩
      · intro scope value hv
        rw [encode, if_pos hraw, hv]
      · intro scope source nullable hs hy
        rw [decode, if_pos hraw, eval_guarded_of_ne hy hs,
          eval_listFrom_of_list hy fun v hv => (hraws v hv).2]
    · choose! g hj _ he hd using fun v hv => ih v hv fun i hi => hr i (.item hv hi)
      refine ⟨.list (items.map g), ?_, nofun, ?_, ?_⟩
      · exact isJson_list_iff.2 (List.forall_mem_map.2 hj)
      · intro scope value hv
        have h : List.Forall₂ (fun v y =>
            eval R (withItem v scope) (encode (.named itemName) item) = some y)
            items (items.map g) :=
          List.forall₂_map_right_iff.2 (List.forall₂_same.2
            fun v hv => he v hv _ _ (eval_itemName v))
        rw [encode, if_neg hraw, eval_mapItems_of_list hv (mapM_of_forall₂ h)]
      · intro scope source nullable _ hy
        have h : List.Forall₂ (fun y v =>
            eval R (withItem y scope) (decode (.named itemName) false item) = some v)
            (items.map g) items :=
          List.forall₂_map_left_iff.2 (List.forall₂_same.2
            fun v hv => hd v hv _ _ false nofun (eval_itemName (g v)))
        rw [decode, if_neg hraw, eval_mapItems_of_list (eval_asList_of_list hy) (mapM_of_forall₂ h)]

end HasType

section Models

variable {R : Runtime ι} {scope : String → Option (Value ι)}

/-- The values of the fields of a model, in order, any of them null. -/
def IsInstance (R : Runtime ι) (m : List Field) (fields : List (String × Value ι)) : Prop :=
  List.Forall₂ (fun f e => e.1 = f.name ∧ (e.2 = .null ∨ HasType R f.type e.2)) m fields

theorem eval_of_nonNull {e : Expr} {y : Value ι} (h : eval R scope (.nonNull e) = some y) :
    eval R scope e = some y := by
  rw [eval_nonNull] at h
  obtain ⟨v, hv, hvy⟩ := Option.bind_eq_some_iff.1 h
  rw [hv, eq_of_nonNull? hvy]

theorem eval_encodeField {f : Field} {y : Value ι}
    (h : eval R scope (encode (.nonNull (.named f.name)) f.type) = some y) :
    eval R scope (encodeField f) = some y := by
  unfold encodeField
  split
  · next he => exact eval_of_nonNull (he ▸ h)
  · exact h

theorem eval_decode_null {source : Expr} (h : eval R scope source = some .null) (t : TypeRef) :
    eval R scope (decode source true t) = some .null := by
  induction t with
  | dynamic | primitive => exact h
  | model | enumeration => simp [decode, guarded, eval_unlessNull, h]
  | list item =>
    by_cases hraw : isRaw item = true
    · simp [decode, hraw, guarded, eval_unlessNull, h]
    · simp [decode, hraw, eval_mapItems, eval_asList, h, asList?, mapItems?]

theorem eval_entry_of_map {key : String} {entries : List (String × Value ι)}
    (h : scope mapName = some (.map entries)) :
    eval R scope (.entry key) = some ((entries.lookup key).getD .null) := by
  rw [Expr.eval_entry, h, Option.bind_some, literalValue?_quote, Option.bind_some, entry?]

theorem encodedEntry_of_ne {fields : List (String × Value ι)} {f : Field} {x : Value ι}
    (hl : fields.lookup f.name = some x) (hx : x ≠ .null) :
    encodedEntry R fields f = (eval R (fields.lookup ·) (encodeField f)).map some := by
  rw [encodedEntry, hl]
  cases x <;> first | exact absurd rfl hx | rfl

theorem exists_encodeStep {fields : List (String × Value ι)} {f : Field} {w : Option (Value ι)}
    (h : encodedEntry R fields f = some w) (entries : List (String × Value ι)) :
    ∃ next, encodeStep R fields entries f = some next ∧
      next.lookup f.schemaName = w.or (entries.lookup f.schemaName) ∧
      (∀ key ≠ f.schemaName, next.lookup key = entries.lookup key) ∧
      ∀ e ∈ next, e ∈ entries ∨ w = some e.2 := by
  cases w with
  | none => exact ⟨entries, by simp [encodeStep, h], rfl, fun _ _ => rfl, fun _ => .inl⟩
  | some v =>
    refine ⟨Json.setMember f.schemaName v entries, by simp [encodeStep, h, literalValue?_quote],
      Json.lookup_setMember _ v entries, fun _ hk => Json.lookup_setMember_of_ne v entries hk,
      fun e he => ?_⟩
    rcases Json.mem_of_mem_setMember he with he | rfl
    · exact .inl he
    · exact .inr rfl

/-- Encoding an instance fills the map key by key. No key is written twice, so that in the end each
key has the value of its own field. -/
theorem foldlM_encodeStep {fields : List (String × Value ι)} {w : Field → Option (Value ι)}
    {m : List Field} (hk : (m.map (·.schemaName)).Nodup)
    (hw : ∀ f ∈ m, encodedEntry R fields f = some (w f)) (entries : List (String × Value ι)) :
    ∃ entries', m.foldlM (encodeStep R fields) entries = some entries' ∧
      (∀ key ∉ m.map (·.schemaName), entries'.lookup key = entries.lookup key) ∧
      (∀ f ∈ m, entries'.lookup f.schemaName = (w f).or (entries.lookup f.schemaName)) ∧
      ∀ e ∈ entries', e ∈ entries ∨ ∃ f ∈ m, w f = some e.2 := by
  induction m generalizing entries with
  | nil => exact ⟨entries, rfl, fun _ _ => rfl, nofun, fun _ => .inl⟩
  | cons f m ih =>
    obtain ⟨hf, hm⟩ := List.forall_mem_cons.1 hw
    obtain ⟨hfk, hmk⟩ := List.nodup_cons.1 hk
    obtain ⟨next, hnext, hself, hother, hmem⟩ := exists_encodeStep hf entries
    obtain ⟨entries', he, hout, hin, hfrom⟩ := ih hmk hm next
    refine ⟨entries', ?_, ?_, List.forall_mem_cons.2 ⟨?_, ?_⟩, ?_⟩
    · rw [List.foldlM_cons, hnext]
      exact he
    · intro key hkey
      rw [List.map_cons, List.mem_cons, not_or] at hkey
      rw [hout key hkey.2, hother key hkey.1]
    · rw [hout _ hfk, hself]
    · intro g hg
      have hne : g.schemaName ≠ f.schemaName := by
        intro h
        exact hfk (List.mem_map.2 ⟨g, hg, h⟩)
      rw [hin g hg, hother _ hne]
    · intro e he
      rcases hfrom e he with he | ⟨g, hg, hge⟩
      · exact (hmem e he).imp_right fun hfe => ⟨f, List.mem_cons_self, hfe⟩
      · exact .inr ⟨g, List.mem_cons_of_mem _ hg, hge⟩

theorem lookup_of_mem {α : Type*} {l : List (String × α)} (h : (l.map (·.1)).Nodup)
    {e : String × α} (he : e ∈ l) : l.lookup e.1 = some e.2 := by
  induction l with
  | nil => cases he
  | cons first rest ih =>
    obtain ⟨hfirst, hrest⟩ := List.nodup_cons.1 h
    rcases List.mem_cons.1 he with rfl | he
    · rw [List.lookup_cons, beq_self_eq_true]
    · have hne : e.1 ≠ first.1 := by
        rintro hk
        exact hfirst (List.mem_map.2 ⟨e, he, hk⟩)
      rw [List.lookup_cons, beq_eq_false_iff_ne.2 hne]
      exact ih hrest he

theorem IsInstance.names {m : List Field} {fields : List (String × Value ι)}
    (h : IsInstance R m fields) : fields.map (·.1) = m.map (·.name) := by
  induction h with
  | nil => rfl
  | cons hf _ ih => rw [List.map_cons, List.map_cons, ih, hf.1]

/-- With distinct names, an instance is a function of the fields of its model. -/
theorem IsInstance.exists_values {m : List Field} {fields : List (String × Value ι)}
    (h : IsInstance R m fields) (hn : (m.map (·.name)).Nodup) :
    ∃ x : Field → Value ι, fields = m.map (fun f => (f.name, x f)) ∧
      ∀ f ∈ m, fields.lookup f.name = some (x f) ∧ (x f = .null ∨ HasType R f.type (x f)) := by
  have hkeys : (fields.map (·.1)).Nodup := h.names ▸ hn
  let x : Field → Value ι := fun f => (fields.lookup f.name).getD .null
  have hx : fields = m.map fun f => (f.name, x f) := by
    refine (List.forall₂_eq_eq_eq ▸ List.forall₂_map_left_iff.2 ?_ : m.map _ = fields).symm
    obtain ⟨hl, hz⟩ := List.forall₂_iff_zip.1 h
    refine List.forall₂_iff_zip.2 ⟨hl, fun {f e} he => ?_⟩
    have hlookup := lookup_of_mem hkeys (List.of_mem_zip he).2
    rw [(hz he).1] at hlookup
    exact Prod.ext (hz he).1.symm (by simp [x, hlookup])
  have ht : ∀ f ∈ m, f.name = f.name ∧ (x f = .null ∨ HasType R f.type (x f)) := by
    rw [hx] at h
    exact List.forall₂_same.1 (List.forall₂_map_right_iff.1 h)
  refine ⟨x, hx, fun f hf => ⟨?_, (ht f hf).2⟩⟩
  exact lookup_of_mem (e := (f.name, x f)) hkeys (hx ▸ List.mem_map.2 ⟨f, hf, rfl⟩)

/-- The entry of a field holds JSON data, and decoding it or its absence restores the field. -/
theorem exists_encodedEntry {fields : List (String × Value ι)} {f : Field} {x : Value ι}
    (hl : fields.lookup f.name = some x) (ht : x = .null ∨ HasType R f.type x)
    (hr : ∀ i, Occurs i x → R.Restores i) :
    ∃ w, encodedEntry R fields f = some w ∧ (∀ y, w = some y → y.IsJson) ∧
      ∀ scope, f.isNullable = true →
        eval R scope (.entry f.schemaName) = some (w.getD .null) →
        eval R scope (decodeField f) = some x := by
  by_cases hx : x = .null
  · subst hx
    refine ⟨none, by simp [encodedEntry, hl], nofun, ?_⟩
    intro scope hf hs
    rw [decodeField, hf]
    exact eval_decode_null hs f.type
  · obtain ⟨y, hj, hy, he, hd⟩ := (ht.resolve_left hx).conversions hr
    have hv : eval R (fields.lookup ·) (.nonNull (.named f.name)) = some x := by
      rw [eval_nonNull, eval_named, hl, Option.bind_some, nonNull?_of_ne hx]
    have hw : eval R (fields.lookup ·) (encodeField f) = some y := eval_encodeField (he _ _ hv)
    refine ⟨some y, ?_, ?_, ?_⟩
    · rw [encodedEntry_of_ne hl hx, hw, Option.map_some]
    · rintro z hz
      exact Option.some.inj hz ▸ hj
    · intro scope hf hs
      exact hd _ _ _ (fun _ => hy hx) hs

/-- Decoding the map form of an instance of a model restores the instance. -/
theorem decodeModel_encodeModel {m : List Field} {fields : List (String × Value ι)}
    (hm : ∀ f ∈ m, f.isNullable = true) (hn : (m.map (·.name)).Nodup)
    (hk : (m.map (·.schemaName)).Nodup) (hi : IsInstance R m fields)
    (hr : ∀ e ∈ fields, ∀ i, Occurs i e.2 → R.Restores i) :
    ∃ y, encodeModel R m fields = some y ∧ y.IsJson ∧ decodeModel R m y = some fields := by
  obtain ⟨x, hx, hfields⟩ := hi.exists_values hn
  have hentry : ∀ f ∈ m, ∃ w, encodedEntry R fields f = some w ∧ (∀ y, w = some y → y.IsJson) ∧
      ∀ scope, eval R scope (.entry f.schemaName) = some (w.getD .null) →
        eval R scope (decodeField f) = some (x f) := by
    intro f hf
    have hmem : (f.name, x f) ∈ fields := hx ▸ List.mem_map.2 ⟨f, hf, rfl⟩
    obtain ⟨w, hw, hj, hd⟩ := exists_encodedEntry (hfields f hf).1 (hfields f hf).2 (hr _ hmem)
    exact ⟨w, hw, hj, fun scope => hd scope (hm f hf)⟩
  choose! w hw hj hd using hentry
  obtain ⟨entries, he, -, hin, hfrom⟩ := foldlM_encodeStep hk hw []
  refine ⟨.map entries, by simp [encodeModel, he], isJson_map_iff.2 fun e hmem => ?_, ?_⟩
  · obtain hnil | ⟨f, hf, hfe⟩ := hfrom e hmem
    · cases hnil
    · exact hj f hf e.2 hfe
  · refine hx ▸ mapM_of_forall₂ (List.forall₂_map_right_iff.2 (List.forall₂_same.2 fun f hf => ?_))
    rw [decodedEntry, hd f hf]
    · rfl
    · rw [eval_entry_of_map (if_pos rfl), hin f hf, List.lookup_nil, Option.or_none]

end Models

/-- Instances of one type, numbered, with their number as map form. -/
def numbered : Runtime Nat where
  typeName _ := Naming.typeName "Item"
  toMap n := some (.map [("no", .int n)])
  fromMap _
    | .map [("no", .int n)] => some n.toNat
    | _ => none

/-- A definition with a property whose name needs escapes in its literal. -/
def order : Schema.Definition where
  name := "Order"
  properties := [
    ⟨"it's $5", .list (some (.list (some (.reference "#/definitions/Item" "")) "")) ""⟩,
    ⟨"note", .primitive (some "string") ""⟩]

def orders : Schema.Document where
  definitions := [order, ⟨"Item", []⟩]

theorem restores_numbered (n : Nat) : numbered.Restores n := by
  refine ⟨.map [("no", .int n)], rfl, isJson_map_iff.2 ?_, nofun, rfl⟩
  rintro e he i hi
  rw [List.mem_singleton.1 he] at hi
  cases hi

theorem hasType_numbered (path : String) :
    HasType numbered (.list (.list (.model (Naming.typeName "Item") path)))
      (.list [.list [.instance 7], .list []]) :=
  .list (List.forall_mem_cons.2 ⟨.list (List.forall_mem_singleton.2 (.model 7 path)),
    List.forall_mem_singleton.2 (.list nofun)⟩)

theorem fields_order :
    (Analysis.ofProperties orders {} "Order" order.properties).model.fields =
      [⟨Naming.fieldName "it's $5", "it's $5",
          .list (.list (.model (Naming.typeName "Item") (modelImport {} "Item"))), true⟩,
       ⟨Naming.fieldName "note", "note", .primitive .string, true⟩] := by
  have hresolved : orders.resolve? "#/definitions/Item" = some ⟨"Item", []⟩ := by rfl
  have hstring : Primitive.ofName? "string" = some .string := by rfl
  simp only [Analysis.fields_ofProperties, order, List.map_cons, List.map_nil, Field.ofProperty,
    resolve, resolveReference, hresolved, hstring, Option.map_some, Option.getD_some,
    Option.bind_some]

end DartModels.Dart
