import ModelCompiler.Model.Shape
import ModelCompiler.Proofs.Results
import ModelCompiler.Proofs.Tables

/-!
# The grammar of model records

Which JSON values are records of models (`Model.DescribedBy`), and what is reported of those that are not
(`Model.Failures`). The report on a record is the one list that names each part of it where the grammar is broken once
and in order, and a record is read as the model that it describes exactly when nothing is reported (`failures_exact`).

* **Fields** (`Field.ofJson?_eq_some_iff`, `Field.faults_eq_nil_iff`): a field is read from a record that describes it,
  and there are no faults exactly in the records of the grammar (`Field.IsRecord`).
* **Tables of fields** (`Fields.ofJson?_eq_some_iff`): the names in an object are distinct, so nothing is lost when the
  fields are put into a table.
* **One name for all faults in a field** (`eraseDups_flatMap_const`): the faults in a field have one name in the report
  and those in different fields have different ones, so the report has the names of the malformed fields, in order.
* **Two passes** (`Model.failures_eq_nil_iff`): the report goes on after a fault and the reading gives up at the first
  one, yet the report is empty exactly when there is something to read.
-/

namespace ModelCompiler

open Json (Members Place)

/-! ## Lists that keep each entry once -/

section Once

variable {α β γ : Type} [DecidableEq β]

theorem nodup_eraseDups (l : List β) : l.eraseDups.Nodup := Keyed.items_ofList_id l ▸ Keyed.nodup_items_id _

theorem eraseDups_append_of_disjoint {l l' : List β} (h : l.Disjoint l') :
    (l ++ l').eraseDups = l.eraseDups ++ l'.eraseDups := by
  have hkept : l'.removeAll l = l' := by
    rw [List.removeAll, List.filter_eq_self]
    intro b hb
    simpa using fun hl => h hl hb
  rw [List.eraseDups_append, hkept]

theorem eraseDups_map_const (l : List α) (b : β) : (l.map fun _ => b).eraseDups = if l = [] then [] else [b] := by
  cases l with
  | nil => rfl
  | cons a l =>
    rw [List.map_cons, List.eraseDups_cons, List.filter_eq_nil_iff.mpr (by simp)]
    rfl

theorem eraseDups_eq_nil_iff {l : List β} : l.eraseDups = [] ↔ l = [] := by
  cases l <;> simp [List.eraseDups_cons]

/-- What is found in the entries of a list is kept once for each entry, where it has one name in an entry and different
names in different entries. -/
theorem eraseDups_flatMap_const {name : α → β} {find : α → List γ} : ∀ {l : List α}, (l.map name).Nodup →
    (l.flatMap fun a => (find a).map fun _ => name a).eraseDups = (l.filter fun a => !(find a).isEmpty).map name
  | [], _ => rfl
  | a :: l, h => by
    obtain ⟨ha, h⟩ := List.nodup_cons.mp h
    have hdisjoint : ((find a).map fun _ => name a).Disjoint (l.flatMap fun a => (find a).map fun _ => name a) := by
      intro b hb hb'
      obtain ⟨_, -, rfl⟩ := List.mem_map.mp hb
      obtain ⟨a', ha', hb'⟩ := List.mem_flatMap.mp hb'
      obtain ⟨_, -, heq⟩ := List.mem_map.mp hb'
      exact ha (heq ▸ List.mem_map_of_mem ha')
    rw [List.flatMap_cons, eraseDups_append_of_disjoint hdisjoint, eraseDups_map_const, eraseDups_flatMap_const h]
    cases hfind : find a <;> simp [hfind]

theorem filter_mem_of_sublist {l all : List β} (hall : all.Nodup) (h : l.Sublist all) :
    all.filter (· ∈ l) = l := by
  induction h with
  | slnil => rfl
  | @cons l all b h ih =>
    obtain ⟨hb, hall⟩ := List.nodup_cons.mp hall
    have hb' : b ∉ l := fun hmem => hb (h.subset hmem)
    simpa [hb'] using ih hall
  | @cons_cons l all b h ih =>
    obtain ⟨hb, hall⟩ := List.nodup_cons.mp hall
    have hmem : ∀ b' ∈ all, decide (b' ∈ b :: l) = decide (b' ∈ l) := by
      intro b' hb'
      have hne : b' ≠ b := fun heq => hb (heq ▸ hb')
      simp [hne]
    rw [List.filter_cons_of_pos (by simp), List.filter_congr hmem, ih hall]

/-- Entries that keep the order of a list without repetition are determined by which they are. -/
theorem eq_of_sublist {l l' all : List β} (hall : all.Nodup) (h : l.Sublist all) (h' : l'.Sublist all)
    (hmem : ∀ b, b ∈ l ↔ b ∈ l') : l = l' := by
  rw [← filter_mem_of_sublist hall h, ← filter_mem_of_sublist hall h']
  simp only [hmem]

end Once

/-! ## Members under two spellings -/

namespace Json.Members

variable {record : Members}

/-- The value of a member, or of another one where that is absent. -/
def Reads (record : Members) (usual other : String) (j : Json) : Prop :=
  record.value? usual = some j ∨ record.value? usual = none ∧ record.value? other = some j

/-- What the modifier of a field's record says: a keyword, or nothing when it is absent or null. -/
def SaysModifier (record : Members) : Option Visibility → Prop
  | none => record.value? "modifier" = none ∨ record.value? "modifier" = some .null
  | some v => record.value? "modifier" = some (.text v.keyword)

theorem reads_iff {usual other : String} {j : Json} :
    (record.value? usual <|> record.value? other) = some j ↔ record.Reads usual other j := by
  unfold Reads
  cases record.value? usual <;> simp

theorem faultsUnder_eq_nil_iff {usual other : String} {faults : Json → List Place} :
    record.faultsUnder usual other faults = [] ↔ ∃ j, record.Reads usual other j ∧ faults j = [] := by
  unfold faultsUnder
  cases h : record.value? usual with
  | some j => simp [Reads, h]
  | none => cases h' : record.value? other <;> simp [Reads, h, h']

end Json.Members

theorem Visibility.ofKeyword?_eq_some_iff {s : String} {v : Visibility} : ofKeyword? s = some v ↔ s = v.keyword := by
  constructor
  · intro h
    unfold ofKeyword? at h
    split at h <;> cases h <;> rfl
  · rintro rfl
    cases v <;> rfl

/-! ## Records of fields -/

namespace Field

/-- An object with a non-empty array of strings as its types and with no modifier, a null or a keyword. -/
def IsRecord (j : Json) : Prop :=
  ∃ record, j.members? = some record ∧
    (∃ names : List String, names ≠ [] ∧ record.Reads "type" "types" (.array (names.map .text))) ∧
    ∃ modifier, record.SaysModifier modifier

/-- The field has the types that the record lists, each where it is listed first, and the modifier of the record. -/
def DescribedBy (f : Field) (j : Json) : Prop :=
  ∃ (record : Members) (names : List String), j.members? = some record ∧
    record.Reads "type" "types" (.array (names.map .text)) ∧ f.types = names.eraseDups ∧ record.SaysModifier f.modifier

theorem mapM_text_eq_some_iff {items : List Json} {names : List String} :
    (items.mapM fun | .text s => some s | _ => none) = some names ↔ items = names.map .text := by
  have htext : ∀ (item : Json) (s : String),
      (match item with | .text s => some s | _ => none) = some s ↔ item = .text s := by
    intro item s
    cases item <;> simp
  rw [Results.mapM_eq_some_iff, ← List.forall₂_eq_eq_eq, List.forall₂_map_right_iff]
  simp only [htext]

theorem typesOf?_eq_some_iff {j : Json} {types : { types : List String // types ≠ [] ∧ types.Nodup }} :
    typesOf? j = some types ↔ ∃ names : List String, j = .array (names.map .text) ∧ types.1 = names.eraseDups := by
  cases j with
  | array items =>
    cases items with
    | nil =>
      have hnone : ∀ names : List String, Json.array [] = .array (names.map .text) → types.1 ≠ names.eraseDups := by
        intro names hj
        obtain rfl : names = [] := List.map_eq_nil_iff.mp (Json.array.inj hj).symm
        exact types.2.1
      simpa [typesOf?] using hnone
    | cons item items =>
      simp only [typesOf?, Option.bind_eq_bind, Option.bind_eq_some_iff]
      constructor
      · rintro ⟨names, hmap, h⟩
        split at h
        · cases h
          exact ⟨names, congrArg _ (mapM_text_eq_some_iff.mp hmap), Keyed.items_ofList_id names⟩
        · cases h
      · rintro ⟨names, hj, htypes⟩
        have hdistinct : (Keyed.ofList names : Keyed (id : String → String)).items = types.1 :=
          (Keyed.items_ofList_id names).trans htypes.symm
        refine ⟨names, mapM_text_eq_some_iff.mpr (Json.array.inj hj), ?_⟩
        rw [dif_pos (hdistinct ▸ types.2.1)]
        exact congrArg some (Subtype.ext hdistinct)
  | _ => simp [typesOf?]

theorem modifierOf?_eq_some_iff {record : Members} {modifier : Option Visibility} :
    modifierOf? (record.value? "modifier") = some modifier ↔ record.SaysModifier modifier := by
  unfold modifierOf? Json.Members.SaysModifier
  cases h : record.value? "modifier" with
  | none => cases modifier <;> simp
  | some j =>
    cases j with
    | null => cases modifier <;> simp
    | text s => cases modifier <;> simp [Visibility.ofKeyword?_eq_some_iff]
    | _ => cases modifier <;> simp

/-- A field is read from the records that describe it. -/
theorem ofJson?_eq_some_iff {name : String} {j : Json} {f : Field} :
    ofJson? name j = some f ↔ f.name = name ∧ f.DescribedBy j := by
  simp only [ofJson?, Option.bind_eq_bind, Option.bind_eq_some_iff, Json.Members.reads_iff, typesOf?_eq_some_iff,
    modifierOf?_eq_some_iff]
  constructor
  · rintro ⟨record, hj, _, hreads, types, ⟨names, rfl, htypes⟩, modifier, hmodifier, h⟩
    cases h
    exact ⟨rfl, record, names, hj, hreads, htypes, hmodifier⟩
  · rintro ⟨rfl, record, names, hj, hreads, htypes, hmodifier⟩
    exact ⟨record, hj, _, hreads, ⟨f.types, f.types_ne_nil, f.types_nodup⟩, ⟨names, rfl, htypes⟩, f.modifier, hmodifier,
      rfl⟩

/-- Every record of the grammar describes a field of any name. -/
theorem exists_describedBy_iff {name : String} {j : Json} :
    (∃ f : Field, f.name = name ∧ f.DescribedBy j) ↔ IsRecord j := by
  constructor
  · rintro ⟨f, -, record, names, hj, hreads, htypes, hmodifier⟩
    refine ⟨record, hj, ⟨names, ?_, hreads⟩, f.modifier, hmodifier⟩
    rintro rfl
    exact f.types_ne_nil htypes
  · rintro ⟨record, hj, ⟨names, hne, hreads⟩, modifier, hmodifier⟩
    obtain ⟨t, ht⟩ := List.exists_mem_of_ne_nil names hne
    have hne' : names.eraseDups ≠ [] := List.ne_nil_of_mem (List.mem_eraseDups.mpr ht)
    exact ⟨⟨name, names.eraseDups, modifier, hne', nodup_eraseDups names⟩, rfl, record, names, hj, hreads, rfl,
      hmodifier⟩

theorem exists_map_text_iff {items : List Json} :
    (∃ names : List String, items = names.map .text) ↔ ∀ item ∈ items, ∃ s, item = .text s := by
  rw [← Results.exists_forall₂_iff]
  refine exists_congr fun names => ?_
  rw [← List.forall₂_eq_eq_eq, List.forall₂_map_right_iff]

theorem typesFaults_eq_nil_iff {j : Json} :
    typesFaults j = [] ↔ ∃ names : List String, names ≠ [] ∧ j = .array (names.map .text) := by
  cases j with
  | array items =>
    cases items with
    | nil => simp [typesFaults]
    | cons item items =>
      unfold typesFaults
      rw [List.filterMap_eq_nil_iff]
      constructor
      · intro h
        have htext : ∀ x ∈ item :: items, ∃ s, x = .text s := by
          intro x hx
          obtain ⟨i, hi⟩ := List.mem_iff_getElem?.mp hx
          have hnone := h (x, i) (List.mem_zipIdx_iff_getElem?.mpr hi)
          cases x with
          | text s => exact ⟨s, rfl⟩
          | _ => cases hnone
        obtain ⟨names, hnames⟩ := exists_map_text_iff.mpr htext
        refine ⟨names, ?_, congrArg Json.array hnames⟩
        rintro rfl
        cases hnames
      · rintro ⟨names, -, hj⟩ ⟨x, i⟩ hx
        have hmem : x ∈ item :: items := List.mem_of_getElem? (List.mem_zipIdx_iff_getElem?.mp hx)
        obtain ⟨s, rfl⟩ := exists_map_text_iff.mp ⟨names, Json.array.inj hj⟩ x hmem
        rfl
  | _ => simp [typesFaults]

theorem modifierFaults_eq_nil_iff {record : Members} :
    modifierFaults record = [] ↔ ∃ modifier, record.SaysModifier modifier := by
  simp only [← modifierOf?_eq_some_iff, ← Option.isSome_iff_exists, modifierFaults]
  split <;> simp [*]

/-- There are no faults exactly in the records of the grammar. -/
theorem faults_eq_nil_iff {j : Json} : faults j = [] ↔ IsRecord j := by
  unfold faults IsRecord
  cases j.members? with
  | none => simp
  | some record =>
    simp only [List.append_eq_nil_iff, Json.Members.faultsUnder_eq_nil_iff, typesFaults_eq_nil_iff,
      modifierFaults_eq_nil_iff, Option.some.injEq, exists_eq_left']
    refine and_congr_left fun _ => ?_
    constructor
    · rintro ⟨_, hreads, names, hne, rfl⟩
      exact ⟨names, hne, hreads⟩
    · rintro ⟨names, hne, hreads⟩
      exact ⟨_, hreads, names, hne, rfl⟩

end Field

/-! ## Records of tables of fields -/

namespace Fields

/-- An object whose members are records of fields. -/
def IsRecord (j : Json) : Prop := ∃ members, j.members? = some members ∧ ∀ x ∈ members.items, Field.IsRecord x.2

/-- The fields are described by the members of the object, in order. -/
def DescribedBy (fields : Fields) (j : Json) : Prop :=
  ∃ members, j.members? = some members ∧
    List.Forall₂ (fun x f => f.name = x.1 ∧ f.DescribedBy x.2) members.items fields.items

theorem names_of_forall₂ {members : List (String × Json)} {fields : List Field}
    (h : List.Forall₂ (fun x f => f.name = x.1 ∧ f.DescribedBy x.2) members fields) :
    fields.map Field.name = members.map Prod.fst := by
  rw [← List.forall₂_eq_eq_eq, List.forall₂_map_left_iff, List.forall₂_map_right_iff]
  exact h.flip.imp fun _ _ hf => hf.1

theorem ofMembers?_eq_some_iff {members : Members} {fields : Fields} : ofMembers? members = some fields ↔
    List.Forall₂ (fun x f => f.name = x.1 ∧ f.DescribedBy x.2) members.items fields.items := by
  simp only [ofMembers?, Option.map_eq_some_iff, Results.mapM_eq_some_iff, Field.ofJson?_eq_some_iff]
  constructor
  · rintro ⟨items, hitems, rfl⟩
    rwa [Keyed.items_ofList (names_of_forall₂ hitems ▸ members.nodup)]
  · intro h
    exact ⟨fields.items, h, Keyed.ofList_items fields⟩

theorem ofJson?_eq_some_iff {j : Json} {fields : Fields} : ofJson? j = some fields ↔ fields.DescribedBy j := by
  simp only [ofJson?, Option.bind_eq_some_iff, ofMembers?_eq_some_iff, DescribedBy]

/-- Every record of the grammar describes a table of fields. -/
theorem exists_describedBy_iff {j : Json} : (∃ fields : Fields, fields.DescribedBy j) ↔ IsRecord j := by
  have hmembers : ∀ members : Members,
      (∃ fields, ofMembers? members = some fields) ↔ ∀ x ∈ members.items, Field.IsRecord x.2 := by
    intro members
    rw [← Option.isSome_iff_exists, ofMembers?, Option.isSome_map, Option.isSome_iff_exists]
    simp only [Results.mapM_eq_some_iff, Results.exists_forall₂_iff, Field.ofJson?_eq_some_iff,
      Field.exists_describedBy_iff]
  simp only [← ofJson?_eq_some_iff, ofJson?, IsRecord, ← hmembers]
  cases j.members? <;> simp

/-- There are no faults exactly in the records of the grammar. -/
theorem faults_eq_nil_iff {j : Json} : faults j = [] ↔ IsRecord j := by
  unfold faults IsRecord
  cases j.members? <;> simp [Field.faults_eq_nil_iff]

end Fields

/-! ## Records of models -/

namespace Model

/-- The model has the name that the record gives and the fields that it describes. -/
def DescribedBy (m : Model) (j : Json) : Prop :=
  ∃ record fields, j.members? = some record ∧ record.value? "name" = some (.text m.name) ∧
    record.Reads "memberVariables" "member_variables" fields ∧ m.fields.DescribedBy fields

/-- What is reported of the fields of a record. Under the usual spelling these are the malformed members, in order;
under the other one there is one name for all of them. -/
inductive FieldFailures (record : Members) : List String → Prop
  | absent (h : record.value? "memberVariables" = none) (h' : record.value? "member_variables" = none) :
      FieldFailures record ["memberVariables"]
  | noObject {j : Json} (h : record.value? "memberVariables" = some j) (hj : j.members? = none) :
      FieldFailures record ["memberVariables"]
  | members {j : Json} {members : Members} {bad : List String} (h : record.value? "memberVariables" = some j)
      (hj : j.members? = some members) (hbad : bad.Sublist members.keys)
      (hmem : ∀ k, k ∈ bad ↔ ∃ v, (k, v) ∈ members.items ∧ ¬Field.IsRecord v) :
      FieldFailures record (bad.map ("memberVariables." ++ ·))
  | otherGood {j : Json} (h : record.value? "memberVariables" = none) (h' : record.value? "member_variables" = some j)
      (hj : Fields.IsRecord j) : FieldFailures record []
  | otherBad {j : Json} (h : record.value? "memberVariables" = none) (h' : record.value? "member_variables" = some j)
      (hj : ¬Fields.IsRecord j) : FieldFailures record ["member_variables"]

/-- What is reported of a value: the value itself, or its name and its fields. -/
inductive Failures : Json → List String → Prop
  | root {j : Json} (hj : j.members? = none) : Failures j ["root"]
  | named {j : Json} {record : Members} {names : List String} (hj : j.members? = some record)
      (hname : ∃ s, record.value? "name" = some (.text s)) (h : FieldFailures record names) : Failures j names
  | nameless {j : Json} {record : Members} {names : List String} (hj : j.members? = some record)
      (hname : ¬∃ s, record.value? "name" = some (.text s)) (h : FieldFailures record names) :
      Failures j ("name" :: names)

variable {record : Members}

theorem nameOf?_eq_some_iff {name : String} :
    nameOf? record = some name ↔ record.value? "name" = some (.text name) := by
  unfold nameOf?
  cases record.value? "name" with
  | none => simp
  | some j => cases j <;> simp

/-- A model is read from the records that describe it. -/
theorem ofJson?_eq_some_iff {j : Json} {m : Model} : ofJson? j = some m ↔ m.DescribedBy j := by
  simp only [ofJson?, Option.bind_eq_bind, Option.bind_eq_some_iff, Json.Members.reads_iff, nameOf?_eq_some_iff,
    Fields.ofJson?_eq_some_iff]
  constructor
  · rintro ⟨record, hj, name, hname, members, hreads, fields, hfields, h⟩
    cases h
    exact ⟨record, members, hj, hname, hreads, hfields⟩
  · rintro ⟨record, members, hj, hname, hreads, hfields⟩
    exact ⟨record, hj, m.name, hname, members, hreads, m.fields, hfields, rfl⟩

/-! ## The report on the fields -/

/-- What is reported of the fields. -/
def fieldFailures (record : Members) : List String :=
  ((record.faultsUnder "memberVariables" "member_variables" Fields.faults).map pathOf).eraseDups

/-- The names of the members that are no records of fields. -/
def malformed (members : Members) : List String :=
  (members.items.filter fun x => !(Field.faults x.2).isEmpty).map Prod.fst

theorem malformed_sublist (members : Members) : (malformed members).Sublist members.keys := List.filter_sublist.map _

theorem mem_malformed {members : Members} {k : String} :
    k ∈ malformed members ↔ ∃ v, (k, v) ∈ members.items ∧ ¬Field.IsRecord v := by
  simp only [malformed, List.mem_map, List.mem_filter, Prod.exists, exists_and_right, exists_eq_right,
    Bool.not_eq_true', ← Bool.not_eq_true, List.isEmpty_iff, Field.faults_eq_nil_iff]

theorem member_path_injective : Function.Injective ("memberVariables." ++ · : String → String) := by
  intro k k' h
  have hlist := congrArg String.toList h
  rw [String.toList_append, String.toList_append] at hlist
  exact String.toList_inj.mp (List.append_cancel_left hlist)

/-- Under the usual spelling the malformed members are reported, each once. -/
theorem fieldFailures_of_members {j : Json} {members : Members} (h : record.value? "memberVariables" = some j)
    (hj : j.members? = some members) : fieldFailures record = (malformed members).map ("memberVariables." ++ ·) := by
  have hpaths : (record.faultsUnder "memberVariables" "member_variables" Fields.faults).map pathOf =
      members.items.flatMap fun x => (Field.faults x.2).map fun _ => "memberVariables." ++ x.1 := by
    simp only [Json.Members.faultsUnder, h, Fields.faults, hj, List.map_flatMap, List.map_map]
    rfl
  have hdistinct : (members.items.map fun x => "memberVariables." ++ x.1).Nodup := by
    rw [← Function.comp_def, ← List.map_map]
    exact members.nodup.map member_path_injective
  rw [fieldFailures, hpaths, eraseDups_flatMap_const hdistinct, malformed, List.map_map]
  rfl

/-- Under the other spelling all faults have one name. -/
theorem fieldFailures_of_other {j : Json} (h : record.value? "memberVariables" = none)
    (h' : record.value? "member_variables" = some j) :
    fieldFailures record = if Fields.faults j = [] then [] else ["member_variables"] := by
  have hpath : ∀ place : Place, pathOf (.member "member_variables" :: place) = "member_variables" := by
    intro place
    cases place <;> rfl
  simp only [fieldFailures, Json.Members.faultsUnder, h, h', List.map_map, Function.comp_def, hpath,
    eraseDups_map_const]

theorem fieldFailures_of_absent (h : record.value? "memberVariables" = none)
    (h' : record.value? "member_variables" = none) : fieldFailures record = ["memberVariables"] := by
  simp only [fieldFailures, Json.Members.faultsUnder, h, h']
  rfl

theorem fieldFailures_of_no_object {j : Json} (h : record.value? "memberVariables" = some j) (hj : j.members? = none) :
    fieldFailures record = ["memberVariables"] := by
  simp only [fieldFailures, Json.Members.faultsUnder, h, Fields.faults, hj]
  rfl

/-- The report on the fields names what it should. -/
theorem fieldFailures_spec (record : Members) : FieldFailures record (fieldFailures record) := by
  cases h : record.value? "memberVariables" with
  | none =>
    cases h' : record.value? "member_variables" with
    | none => exact fieldFailures_of_absent h h' ▸ .absent h h'
    | some j =>
      rw [fieldFailures_of_other h h']
      split
      · exact .otherGood h h' (Fields.faults_eq_nil_iff.mp ‹_›)
      · exact .otherBad h h' (mt Fields.faults_eq_nil_iff.mpr ‹_›)
  | some j =>
    cases hj : j.members? with
    | none => exact fieldFailures_of_no_object h hj ▸ .noObject h hj
    | some members =>
      rw [fieldFailures_of_members h hj]
      exact .members h hj (malformed_sublist members) fun _ => mem_malformed

/-- Nothing else can be reported of the fields. -/
theorem FieldFailures.eq_fieldFailures {names : List String} (h : FieldFailures record names) :
    names = fieldFailures record := by
  cases h with
  | absent h h' => rw [fieldFailures_of_absent h h']
  | noObject h hj => rw [fieldFailures_of_no_object h hj]
  | @members _ members bad h hj hbad hmem =>
    have hbad : bad = malformed members :=
      eq_of_sublist members.nodup hbad (malformed_sublist members) fun k => (hmem k).trans mem_malformed.symm
    rw [fieldFailures_of_members h hj, hbad]
  | otherGood h h' hj => rw [fieldFailures_of_other h h', if_pos (Fields.faults_eq_nil_iff.mpr hj)]
  | otherBad h h' hj => rw [fieldFailures_of_other h h', if_neg (mt Fields.faults_eq_nil_iff.mp hj)]

/-- What is reported of the fields is told from the name by its first letters. -/
theorem FieldFailures.name_not_mem {names : List String} (h : FieldFailures record names) : "name" ∉ names := by
  cases h with
  | members =>
    intro hname
    obtain ⟨k, -, hk⟩ := List.mem_map.mp hname
    have hlist := congrArg (List.head? ∘ String.toList) hk
    simp at hlist
  | _ => simp

/-! ## The report -/

theorem failures_of_members {j : Json} (hj : j.members? = some record) :
    failures j = (if (nameOf? record).isSome then [] else ["name"]) ++ fieldFailures record := by
  have hname : ((nameFaults record).map pathOf).Disjoint
      ((record.faultsUnder "memberVariables" "member_variables" Fields.faults).map pathOf) := by
    intro name hname hfields
    obtain rfl : name = "name" := by
      unfold nameFaults at hname
      split at hname
      · cases hname
      · exact List.mem_singleton.mp hname
    exact (fieldFailures_spec record).name_not_mem (List.mem_eraseDups.mpr hfields)
  rw [failures, hj]
  simp only [faults, List.map_append, eraseDups_append_of_disjoint hname, fieldFailures]
  unfold nameFaults
  split <;> rfl

/-- The report names what it should. -/
theorem failures_spec (j : Json) : Failures j (failures j) := by
  cases hj : j.members? with
  | none =>
    rw [failures, hj]
    exact .root hj
  | some record =>
    have hfields := fieldFailures_spec record
    rw [failures_of_members hj]
    cases hname : nameOf? record with
    | none =>
      refine .nameless hj ?_ hfields
      rintro ⟨s, hs⟩
      rw [nameOf?_eq_some_iff.mpr hs] at hname
      cases hname
    | some s => exact .named hj ⟨s, nameOf?_eq_some_iff.mp hname⟩ hfields

/-- Nothing else can be reported. -/
theorem Failures.eq_failures {j : Json} {names : List String} (h : Failures j names) : names = failures j := by
  cases h with
  | root hj => rw [failures, hj]
  | @named record _ hj hname h =>
    obtain ⟨s, hs⟩ := hname
    rw [failures_of_members hj, nameOf?_eq_some_iff.mpr hs, h.eq_fieldFailures]
    rfl
  | @nameless record _ hj hname h =>
    have hnone : nameOf? record = none :=
      Option.eq_none_iff_forall_ne_some.mpr fun s hs => hname ⟨s, nameOf?_eq_some_iff.mp hs⟩
    rw [failures_of_members hj, hnone, h.eq_fieldFailures]
    rfl

theorem nodup_failures (j : Json) : (failures j).Nodup := by
  unfold failures
  split
  · exact List.nodup_singleton _
  · exact nodup_eraseDups _

/-! ## Reading -/

theorem fieldFailures_eq_nil_iff : fieldFailures record = [] ↔
    ∃ j, record.Reads "memberVariables" "member_variables" j ∧ Fields.IsRecord j := by
  simp only [fieldFailures, eraseDups_eq_nil_iff, List.map_eq_nil_iff, Json.Members.faultsUnder_eq_nil_iff,
    Fields.faults_eq_nil_iff]

/-- There is nothing to report exactly on the records of models. -/
theorem failures_eq_nil_iff {j : Json} : failures j = [] ↔ ∃ m : Model, m.DescribedBy j := by
  cases hj : j.members? with
  | none => simp [failures, DescribedBy, hj]
  | some record =>
    have hnamed : (if (nameOf? record).isSome then [] else ["name"]) = [] ↔
        ∃ name, record.value? "name" = some (.text name) := by
      simp only [← nameOf?_eq_some_iff, ← Option.isSome_iff_exists]
      split <;> simp [*]
    rw [failures_of_members hj, List.append_eq_nil_iff, fieldFailures_eq_nil_iff, hnamed]
    constructor
    · rintro ⟨⟨name, hname⟩, j', hreads, hfields⟩
      obtain ⟨fields, hfields⟩ := Fields.exists_describedBy_iff.mpr hfields
      exact ⟨⟨name, fields⟩, record, j', hj, hname, hreads, hfields⟩
    · rintro ⟨m, record', j', hj', hname, hreads, hfields⟩
      obtain rfl : record = record' := Option.some.inj (hj.symm.trans hj')
      exact ⟨⟨m.name, hname⟩, j', hreads, Fields.exists_describedBy_iff.mp ⟨m.fields, hfields⟩⟩

theorem parse_eq_ok_iff {j : Json} {subject : String} {m : Model} : parse j subject = .ok m ↔ m.DescribedBy j := by
  rw [← ofJson?_eq_some_iff, parse]
  cases ofJson? j <;> simp

theorem parse_eq_error_iff {j : Json} {subject : String} {p : Problem} :
    parse j subject = .error p ↔ failures j ≠ [] ∧ p = .shape subject (failures j) := by
  have hnil : failures j = [] ↔ ∃ m, ofJson? j = some m := by simp only [failures_eq_nil_iff, ofJson?_eq_some_iff]
  rw [ne_eq, hnil, parse]
  cases ofJson? j with
  | none => simp [eq_comm]
  | some m => simp

/-- **The report is exact**: it is the one list of the places where the value breaks the grammar, each once and in
order. A value is read as the model that it describes, and refused with the report where there is anything to report. -/
theorem failures_exact (j : Json) (subject : String) :
    (∀ names, Failures j names ↔ names = failures j) ∧ (failures j).Nodup ∧
      (∀ p, parse j subject = .error p ↔ failures j ≠ [] ∧ p = .shape subject (failures j)) ∧
      ∀ m, parse j subject = .ok m ↔ m.DescribedBy j := by
  refine ⟨fun names => ⟨fun h => h.eq_failures, ?_⟩, nodup_failures j, fun _ => parse_eq_error_iff,
    fun _ => parse_eq_ok_iff⟩
  rintro rfl
  exact failures_spec j

end Model

/-- A record without a name, whose second and last fields are malformed, the last one twice over. -/
def Sample.nameless : Json :=
  .object [("memberVariables", .object [
    ("x", .object [("types", .array [.text "number", .text "number"])]),
    ("y", .object [("type", .array []), ("types", .array [.text "number"])]),
    ("z", .object [("type", .array [.text "string"]), ("modifier", .null)]),
    ("w", .object [("type", .text "string"), ("modifier", .text "internal")])])]

example : Model.failures Sample.nameless = ["name", "memberVariables.y", "memberVariables.w"] := by decide

end ModelCompiler
